import SchemaDesign.Ddl.Body
import SchemaDesign.Ddl.Comment
import SchemaDesign.Ddl.Statement
import SchemaDesign.Log.Record
import SchemaDesign.Model.TableId
import SchemaDesign.Text.Quoted

/-! Reading DDL: the tables that a text defines, with all that was skipped in it. Foreign keys are
resolved once every table of the text is known. -/
namespace SchemaDesign.Ddl

/-- A foreign key whose target is not in the text. -/
structure Unresolved where
  table : String
  column : String
  target : Target
deriving DecidableEq

structure Report where
  tables : List (Table String)
  skipped : List Fragment
  unresolved : List Unresolved
deriving DecidableEq

/-- The pieces of a gap between statements, none of which is blank. -/
def gapFragments (gap : List Char) : List Fragment :=
  (((gap.splitOnP (· == ';')).map Text.trim).filter (!·.isEmpty)).map fun s =>
    ⟨String.ofList s, .notCreateTable⟩

/-- The text of an unclosed statement without blanks and semicolons at its end. -/
def unclosedText (s : List Char) : List Char :=
  Text.trim ((Text.trim s).reverse.dropWhile (· == ';')).reverse

/-- What is skipped outside the bodies of statements. -/
def Segment.fragments : Segment → List Fragment
  | between text => gapFragments text
  | statement _ _ _ => []
  | unclosed text => [⟨String.ofList (unclosedText text), .unbalanced⟩]

/-- The table's name and the body of a statement. -/
def Segment.statement? : Segment → Option (List Char × List Char)
  | statement _ table body => some (table, body)
  | _ => none

def statements (source : List Char) : List (List Char × List Char) :=
  (segments source).filterMap (·.statement?)

def skippedStatements (source : List Char) : List Fragment := (segments source).flatMap (·.fragments)

/-- Why a text cannot be read: a length in the last of the tables that were begun. -/
structure Fault where
  cause : Text.NumeralFault
  begun : Nat
deriving DecidableEq

/-- The tables of some statements, in order, under ids to come, and what was skipped in their bodies. -/
def readStatements (ids : TableId.Supply) :
    List (List Char × List Char) → Except Fault (List Pending × List Fragment)
  | [] => .ok ([], [])
  | (table, body) :: rest => do
      let (pending, inBody) ←
        (readTable ids.first (String.ofList table) body).mapError (⟨·, 1⟩)
      let (tables, skipped) ←
        (readStatements (ids.drop 1) rest).mapError fun e => ⟨e.cause, e.begun + 1⟩
      return (pending :: tables, inBody ++ skipped)

/-- The reference that a target stands for: a column of the first table of that name. -/
def resolve? (batch : List Pending) (target : Target) : Option (Reference String) :=
  (batch.find? (·.table.name == target.table)).bind fun p =>
    if (p.table.column? target.column).isSome then some ⟨p.table.id, target.column⟩ else none

def resolveColumn (batch : List Pending) (p : Pending) (c : Column String) : Column String :=
  match Assoc.get? c.name p.foreignKeys with
  | some target =>
      { c with foreignKey := true, references := (resolve? batch target).getD Reference.unset }
  | none => c

def resolveTable (batch : List Pending) (p : Pending) : Table String :=
  { p.table with columns := p.table.columns.map (resolveColumn batch p) }

def unresolvedIn (batch : List Pending) (p : Pending) : List Unresolved :=
  p.table.columns.filterMap fun c =>
    (Assoc.get? c.name p.foreignKeys).bind fun target =>
      if (resolve? batch target).isSome then none else some ⟨p.table.name, c.name, target⟩

/-- The tables of a text, under ids to come. -/
def read (ids : TableId.Supply) (text : String) : Except Fault Report := do
  if text.isEmpty then return ⟨[], [], []⟩
  let source := withoutComments text.toList
  let (batch, skipped) ← readStatements ids (statements source)
  return ⟨batch.map (resolveTable batch), skippedStatements source ++ skipped,
    batch.flatMap (unresolvedIn batch)⟩

namespace Unresolved

def record (u : Unresolved) : Log.Record :=
  ⟨Log.debug, .parser,
    "Foreign key " ++ u.table ++ "." ++ u.column ++ " → " ++ u.target.table ++ "(" ++ u.target.column
      ++ ") does not resolve."⟩

end Unresolved

def Fragment.record (f : Fragment) : Log.Record :=
  ⟨Log.debug, .parser,
    "Skipped " ++ f.reason.kind.name ++ " (" ++ f.reason.message ++ "): " ++ Text.quoted f.text⟩

/-- What reading a text logs. -/
def Report.records (text : String) (r : Report) : List Log.Record :=
  if text.isEmpty then []
  else
    r.unresolved.map (·.record) ++ r.skipped.map (·.record)
      ++ [⟨Log.debug, .parser,
        "Parsed DDL: " ++ Text.writeInt r.tables.length ++ " table(s), "
          ++ Text.writeInt r.skipped.length ++ " skipped fragment(s)."⟩]

end SchemaDesign.Ddl
