import SchemaDesign.Document.Fault
import SchemaDesign.Store.Basic

/-! Reading tables from JSON documents. Missing fields take defaults, flags take the truth of any value,
and labels pass through unchecked. -/
namespace SchemaDesign.Document

/-- A type length. Texts and numbers are read as integers, fractions cut off; what cannot be read is no
length, but an infinite number is refused. -/
def readLength : Json → Except Fault (Option Int)
  | .bool b => .ok (some (if b then 1 else 0))
  | .int n => .ok (some n)
  | .real (.infinite _) => .error .infiniteLength
  | .real x => .ok x.truncate?
  | .str s =>
      match Text.readInt s.toList with
      | .ok n => .ok (some n)
      | .error _ => .ok none
  | _ => .ok none

/-- The empty text stands for a missing part. -/
def readPart (j : Json) (key : String) : Json :=
  let part := j.field key .null
  if part.isTrue then part else .str ""

def readReference (j : Json) : Except Fault (Reference Json) :=
  if !j.isTrue then .ok Reference.unset
  else if j.kind = .obj then .ok ⟨readPart j "tableId", readPart j "columnName"⟩
  else .error (.noMember j.kind "get")

def readFlag (j : Json) (key : String) (absent : Bool) : Bool := (j.field key (.bool absent)).isTrue

def readColumn (j : Json) : Except Fault (Column Json) :=
  if j.kind ≠ .obj then .error (.noMember j.kind "get")
  else do
    let typeLength ← readLength (j.field "typeLength" .null)
    let references ← readReference (j.field "references" .null)
    return {
      name := j.field "name" (.str "")
      type := j.field "type" (.str "")
      typeLength
      nullable := readFlag j "nullable" true
      unique := readFlag j "unique" false
      primaryKey := readFlag j "primaryKey" false
      foreignKey := readFlag j "foreignKey" false
      references }

/-- The documents that a value lists. A text and an object list their characters and their keys, none of
which is a document. -/
def readItems {α : Type} (read : Json → Except Fault α) : Json → Except Fault (List α)
  | .arr items => items.mapM read
  | .str s => if s == "" then .ok [] else .error (.noMember .str "get")
  | .obj fields => if fields.isEmpty then .ok [] else .error (.noMember .str "get")
  | j => .error (.notIterable j.kind)

def readColumns (j : Json) : Except Fault (List (Column Json)) := readItems readColumn j

def readTable (j : Json) : Except Fault (Table Json) :=
  if j.kind ≠ .obj then .error (.noMember j.kind "get")
  else do
    let columns ← readColumns (j.field "columns" (.arr []))
    return {
      id := j.field "id" (.str "")
      name := j.field "name" (.str "")
      notes := readPart j "notes"
      columns }

def readTables (j : Json) : Except Fault (List (Table Json)) := readItems readTable j

/-- An argument as it is shown; one that counts as missing is none. -/
def argument? (j : Json) (key : String) : Option String :=
  let argument := j.field key .null
  if argument.isTrue then some argument.shown else none

/-- What a document asks a table to be. A missing or null primary key is no choice. -/
def readDraft (j : Json) : Except Fault (Draft Json) := do
  let columns ← readColumns (j.field "columns" (.arr []))
  return {
    name := j.field "name" (.str "")
    notes := j.field "notes" (.str "")
    columns
    primaryKey := Label.chosen (j.field "primaryKey" .null) }

end SchemaDesign.Document
