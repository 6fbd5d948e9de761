import SchemaDesign.Assoc
import SchemaDesign.Ddl.Piece
import SchemaDesign.Model.PrimaryKey
import SchemaDesign.Text.LowerCase
import SchemaDesign.Validation

/-! The table that the pieces of a body make up, and the fragments that it has no place for. -/
namespace SchemaDesign.Ddl

/-- What a skipped fragment was taken for. -/
inductive FragmentKind where
  | statement | line | column
deriving DecidableEq

def FragmentKind.name : FragmentKind → String
  | statement => "statement"
  | line => "line"
  | column => "column"

/-- Why a fragment was skipped. -/
inductive Reason where
  | notCreateTable
  | unbalanced
  | unsupportedClause
  | unrecognised
  | invalidName (name : String)
  | duplicateColumn (name : String)
  | missingColumn (name table : String)
deriving DecidableEq

namespace Reason

def kind : Reason → FragmentKind
  | notCreateTable | unbalanced => .statement
  | unsupportedClause | unrecognised | missingColumn _ _ => .line
  | invalidName _ | duplicateColumn _ => .column

def message : Reason → String
  | notCreateTable => "not a CREATE TABLE statement"
  | unbalanced => "unbalanced parentheses"
  | unsupportedClause => "unsupported table constraint"
  | unrecognised => "unrecognised syntax"
  | invalidName name => "invalid column name '" ++ name ++ "'"
  | duplicateColumn name => "duplicate column '" ++ name ++ "'"
  | missingColumn name table => "no column '" ++ name ++ "' in '" ++ table ++ "'"

end Reason

/-- A part of the input that did not become part of a table. -/
structure Fragment where
  text : String
  reason : Reason
deriving DecidableEq

/-- A table while its pieces are read. Foreign keys wait by column name until all tables are known. -/
structure Body where
  columns : List (Column String)
  primaryKey : Option String
  foreignKeys : List (String × Target)
  skipped : List Fragment
deriving DecidableEq

namespace Body

def empty : Body := ⟨[], none, [], []⟩

def skip (b : Body) (piece : List Char) (reason : Reason) : Body :=
  { b with skipped := b.skipped ++ [⟨String.ofList piece, reason⟩] }

/-- The column of a definition, before its table's keys are settled. -/
def columnOf (d : Definition) (typeLength : Option Int) : Column String :=
  { name := String.ofList d.name
    type := String.ofList (Text.lower d.type)
    typeLength
    nullable := !d.notNull
    unique := d.unique
    primaryKey := d.primaryKey
    foreignKey := false
    references := Reference.unset }

/-- A definition becomes a column unless its name is invalid or taken. A reference that it holds itself
gives way to a clause of the table. -/
def addColumn (b : Body) (piece : List Char) (d : Definition) (inlined : Option Target) :
    Except Text.NumeralFault Body :=
  let name := String.ofList d.name
  if !Validation.isValidName name then .ok (b.skip piece (.invalidName name))
  else if b.columns.any (·.name == name) then .ok (b.skip piece (.duplicateColumn name))
  else do
    let typeLength ← d.typeLength
    return { b with
      columns := b.columns ++ [columnOf d typeLength]
      foreignKeys :=
        match inlined with
        | some target => Assoc.putNew name target b.foreignKeys
        | none => b.foreignKeys }

def add (b : Body) (piece : List Char) : Except Text.NumeralFault Body :=
  match Piece.ofText piece with
  | .primaryKey name => .ok { b with primaryKey := some name }
  | .foreignKey name target => .ok { b with foreignKeys := Assoc.put name target b.foreignKeys }
  | .unsupported => .ok (b.skip piece .unsupportedClause)
  | .unrecognised => .ok (b.skip piece .unrecognised)
  | .column d inlined => b.addColumn piece d inlined

def ofPieces (pieces : List (List Char)) : Except Text.NumeralFault Body := pieces.foldlM add empty

/-- A fragment for each foreign key clause that names no column of the table. -/
def missingColumns (b : Body) (table : String) : List Fragment :=
  (b.foreignKeys.filter fun entry => !b.columns.any (·.name == entry.1)).map fun entry =>
    ⟨"FOREIGN KEY (" ++ entry.1 ++ ")", .missingColumn entry.1 table⟩

end Body

/-- A table whose foreign keys are not resolved yet. -/
structure Pending where
  table : Table String
  foreignKeys : List (String × Target)
deriving DecidableEq

/-- The table of a statement with what was skipped in it. A primary key clause of the table goes before
the flags of its columns. -/
def readTable (id name : String) (body : List Char) :
    Except Text.NumeralFault (Pending × List Fragment) := do
  let b ← Body.ofPieces (pieces body)
  return (
    ⟨⟨id, name, "", PrimaryKey.normalise b.primaryKey b.columns⟩, b.foreignKeys⟩,
    b.skipped ++ b.missingColumns name)

end SchemaDesign.Ddl
