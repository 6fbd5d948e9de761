import SchemaDesign.Ddl.Report
import SchemaDesign.Store.Integrity
import SchemaDesign.Text.CaseFold
import SchemaDesign.Text.Join

/-! The operations that change a store. A draft that does not pass the gate changes nothing. -/
namespace SchemaDesign

/-- What an operation answers, the store after it, and what it logs. -/
structure Outcome (τ α : Type) where
  result : α
  store : Store τ
  records : List Log.Record

namespace Store

variable {τ : Type} [BEq τ] [Label τ]

def record (level : Int) (message : String) : Log.Record := ⟨level, .store, message⟩

def named (label : τ) : String := "'" ++ Label.shown label ++ "'"

def problemList (problems : List (Validation.Problem τ)) : String :=
  Text.joined "; " (problems.map (·.message))

/-- One warning for the first other table whose name is the same apart from case. -/
def collisionRecords (s : Store τ) (id name : τ) : List Log.Record :=
  let folded := Text.caseFold (Label.shown name).toList
  match s.tables.find? fun t =>
      !(t.id == id) && Text.caseFold (Label.shown t.name).toList == folded with
  | some other =>
      [record Log.warning ("Table name " ++ named name ++ " collides with " ++ named other.name
        ++ "; generated identifiers may clash.")]
  | none => []

def danglingRecords (s : Store τ) (id name : τ) (columns : List (Column τ)) : List Log.Record :=
  (columns.filter (s.dangles id columns)).map fun c =>
    record Log.debug ("Dangling reference on '" ++ Label.shown name ++ "." ++ Label.shown c.name
      ++ "' cleared.")

/-- Missing notes become the empty text. -/
def notesOf (notes : τ) : τ := if Label.isEmpty notes then Label.ofText "" else notes

/-- The table that a draft becomes in a store, under a given id. -/
def settle (s : Store τ) (id : τ) (d : Draft τ) : Table τ :=
  ⟨id, d.name, notesOf d.notes, s.sanitise id (PrimaryKey.normalise d.primaryKey d.columns)⟩

def settleRecords (s : Store τ) (id : τ) (d : Draft τ) : List Log.Record :=
  s.danglingRecords id d.name (PrimaryKey.normalise d.primaryKey d.columns)

/-- Adds a table under the first id to come. -/
def create (s : Store τ) (d : Draft τ) : Outcome τ (Option (Table τ)) :=
  match Validation.problems d.name d.columns with
  | [] =>
      let id := Label.ofText s.ids.first
      let t := s.settle id d
      { result := some t
        store := ⟨s.tables ++ [t], s.ids.drop 1⟩
        records := s.settleRecords id d ++ s.collisionRecords id d.name
          ++ [record Log.debug ("Created table " ++ named d.name ++ " (" ++ Label.shown id ++ ") with "
            ++ Text.writeInt t.columns.length ++ " column(s).")] }
  | problems =>
      { result := none
        store := s
        records := [record Log.warning
          ("Table " ++ named d.name ++ " not created: " ++ problemList problems)] }

/-- The columns of a table whose names a draft has no more. -/
def removedColumns (t : Table τ) (d : Draft τ) : List (Column τ) :=
  t.columns.filter fun c => !d.columns.any (·.name == c.name)

/-- Puts a table in the place of the first of its id. -/
def replaceFirst (t : Table τ) : List (Table τ) → List (Table τ)
  | [] => []
  | u :: rest => if u.id == t.id then t :: rest else u :: replaceFirst t rest

def demotionRecords (s : Store τ) (t : Table τ) (removed : List (Column τ)) : List Log.Record :=
  let demoted := demotedCount t.id removed false s.tables
  if demoted = 0 then []
  else
    [record Log.info ("Removing " ++ Text.writeInt removed.length ++ " column(s) from " ++ named t.name
      ++ " demoted " ++ Text.writeInt demoted ++ " foreign key(s).")]

/-- Replaces the name, the notes and the columns of a table. Foreign keys elsewhere that point at a
column that goes away are demoted. -/
def update (s : Store τ) (id : τ) (d : Draft τ) : Outcome τ (Option (Table τ)) :=
  match s.get? id with
  | none =>
      { result := none
        store := s
        records := [record Log.warning ("Cannot update unknown table id " ++ named id ++ ".")] }
  | some old =>
      match Validation.problems d.name d.columns with
      | [] =>
          let removed := removedColumns old d
          let demoted : Store τ := { s with tables := demoteReferences old.id removed false s.tables }
          let t := demoted.settle old.id d
          { result := some t
            store := { demoted with tables := replaceFirst t demoted.tables }
            records := s.demotionRecords old removed ++ demoted.settleRecords old.id d
              ++ demoted.collisionRecords old.id d.name
              ++ [record Log.debug ("Updated table " ++ named d.name ++ " (" ++ Label.shown old.id ++ ").")] }
      | problems =>
          { result := none
            store := s
            records := [record Log.warning
              ("Table " ++ named d.name ++ " not updated: " ++ problemList problems)] }

/-- Removes a table. Foreign keys elsewhere that point into it are demoted. -/
def delete (s : Store τ) (id : τ) : Outcome τ Bool :=
  match s.get? id with
  | none => ⟨false, s, []⟩
  | some t =>
      { result := true
        store := { s with
          tables := (demoteReferences t.id t.columns true s.tables).filter fun u => !(u.id == id) }
        records := [record Log.debug ("Deleted table " ++ named t.name ++ " (" ++ Label.shown id
          ++ "); demoted " ++ Text.writeInt (demotedCount t.id t.columns true s.tables)
          ++ " foreign key(s).")] }

def importRecords (text : String) (r : Ddl.Report) : List Log.Record :=
  r.records text
    ++ (if r.tables.isEmpty then []
      else [record Log.info ("Imported " ++ Text.writeInt r.tables.length ++ " table(s) from DDL.")])
    ++ (if r.skipped.isEmpty then []
      else [record Log.info
        ("DDL import skipped " ++ Text.writeInt r.skipped.length ++ " fragment(s).")])

/-- Adds every table of a DDL text. A text that cannot be read adds none, but the ids of the tables that
were begun are gone. -/
def importDdl (s : Store τ) (text : String) : Outcome τ (Except Text.NumeralFault Ddl.Report) :=
  match Ddl.read s.ids text with
  | .ok report =>
      { result := .ok report
        store := ⟨s.tables ++ report.tables.map (·.map Label.ofText), s.ids.drop report.tables.length⟩
        records := importRecords text report }
  | .error e => ⟨.error e.cause, { s with ids := s.ids.drop e.begun }, []⟩

end Store

end SchemaDesign
