import SchemaDesign.Document.Check
import SchemaDesign.Store.Commit

/-! Changing a store of unchecked tables. A fault stops a change where it is met, and what was done before
stays done. A change without a fault is that of any store. -/
namespace SchemaDesign.Document

/-- What a change answers, or the fault that stopped it. -/
abbrev Change (α : Type) := Outcome Json (Except Fault α)

def done {α : Type} (o : Outcome Json α) : Change α := ⟨.ok o.result, o.store, o.records⟩

def stopped {α : Type} (s : Store Json) (records : List Log.Record) (e : Fault) : Change α :=
  ⟨.error e, s, records⟩

/-- Names are compared without case up to the first that is the same. -/
def collisionFault? (s : Store Json) (id name : Json) : Option Fault :=
  let folded := Text.caseFold name.shown.toList
  let other := s.tables.find? fun t =>
    !(t.id == id) && (t.name.kind ≠ .str || Text.caseFold t.name.shown.toList == folded)
  other.bind fun t => if t.name.kind = .str then none else some (.noMember t.name.kind "casefold")

/-- A new table's id is taken as soon as the draft has passed the gate. -/
def create (s : Store Json) (d : Draft Json) : Change (Option (Table Json)) :=
  match draftFault? d.name d.columns with
  | some e => stopped s [] e
  | none =>
      if (Validation.problems d.name d.columns).isEmpty then
        let id : Json := Label.ofText s.ids.first
        let begun : Store Json := { s with ids := s.ids.drop 1 }
        match preferredFault? d.primaryKey, collisionFault? s id d.name with
        | some e, _ => stopped begun [] e
        | none, some e => stopped begun (s.settleRecords id d) e
        | none, none => done (s.create d)
      else done (s.create d)

/-- Columns that go away are kept by the table's id and their names. -/
def removedFault? (id : Json) (removed : List (Column Json)) : Option Fault :=
  if removed.isEmpty then none
  else keyFault? id <|> removed.findSome? fun c => keyFault? c.name

/-- The columns that point into a table are looked up by the names that they point at. -/
def pointerFault? (target : Json) (t : Table Json) : Option Fault :=
  if t.id == target then none
  else
    t.columns.findSome? fun c =>
      if c.foreignKey && c.references.tableId == target then keyFault? c.references.columnName else none

/-- Demotes foreign keys table by table, up to one that cannot be looked up. -/
def demoted (s : Store Json) (target : Json) (removed : List (Column Json)) (whole : Bool) :
    Store Json × Option Fault :=
  let isSound (t : Table Json) : Bool := (pointerFault? target t).isNone
  let rest := s.tables.dropWhile isSound
  ({ s with
      tables := Store.demoteReferences target removed whole (s.tables.takeWhile isSound) ++ rest },
    rest.head?.bind (pointerFault? target))

/-- Replaces a table by a draft that has passed the gate. -/
def replace (s : Store Json) (old : Table Json) (d : Draft Json) : Change (Option (Table Json)) :=
  let removed := Store.removedColumns old d
  match (old.columns.findSome? fun c => keyFault? c.name) <|> removedFault? old.id removed with
  | some e => stopped s [] e
  | none =>
      match if removed.isEmpty then (s, none) else demoted s old.id removed false with
      | (after, some e) => stopped after [] e
      | (after, none) =>
          match preferredFault? d.primaryKey with
          | some e => stopped after (s.demotionRecords old removed) e
          | none =>
              let o := s.update old.id d
              match collisionFault? o.store old.id d.name with
              | some e =>
                  stopped o.store (s.demotionRecords old removed ++ after.settleRecords old.id d) e
              | none => done o

/-- A draft for a table that is not there is not looked at. -/
def update (s : Store Json) (id : Json) (d : Draft Json) : Change (Option (Table Json)) :=
  match s.get? id with
  | none => done (s.update id d)
  | some old =>
      match draftFault? d.name d.columns with
      | some e => stopped s [] e
      | none =>
          if (Validation.problems d.name d.columns).isEmpty then replace s old d
          else done (s.update id d)

def delete (s : Store Json) (id : Json) : Change Bool :=
  match s.get? id with
  | none => done (s.delete id)
  | some t =>
      match removedFault? t.id t.columns with
      | some e => stopped s [] e
      | none =>
          match demoted s t.id t.columns true with
          | (after, some e) => stopped after [] e
          | (_, none) => done (s.delete id)

end SchemaDesign.Document
