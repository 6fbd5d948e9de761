import SchemaDesign.Model.ColumnType
import SchemaDesign.Model.ForeignKey
import SchemaDesign.Text.Join
import SchemaDesign.Text.Numeral

/-! Drizzle schema modules: one exported object per table, one chain of builder calls per column. -/
namespace SchemaDesign.Export.Drizzle

variable {τ : Type} [BEq τ] [Label τ]

/-- The functions that a module imports. -/
inductive Builder where
  | boolean | char | integer | pgTable | serial | text | varchar
deriving DecidableEq

namespace Builder

/-- In alphabetical order, in which they are imported. -/
def all : List Builder := [boolean, char, integer, pgTable, serial, text, varchar]

def name : Builder → String
  | boolean => "boolean"
  | char => "char"
  | integer => "integer"
  | pgTable => "pgTable"
  | serial => "serial"
  | text => "text"
  | varchar => "varchar"

end Builder

/-- The length argument of a sized type, as it is written. `defaultLength` is the one of a `varchar` that
states none. -/
def lengthArgument (defaultLength : Option String) (c : Column τ) : Option String :=
  match c.columnType? with
  | some .int | some .boolean | some .text => none
  | some .char => some (Text.writeInt (c.length?.getD 1))
  | some .varchar => (c.length?.map Text.writeInt).orElse fun _ => defaultLength
  | _ => defaultLength

/-- An integer primary key counts up by itself; types without a builder become `varchar`. -/
def builder (c : Column τ) : Builder :=
  match c.columnType? with
  | some .int => if c.primaryKey then .serial else .integer
  | some .boolean => .boolean
  | some .text => .text
  | some .char => .char
  | _ => .varchar

/-- `varchar('name', { length: 100 })`, or without a length `varchar('name')`. -/
def call (defaultLength : Option String) (c : Column τ) : String :=
  (builder c).name ++ "('" ++ Label.shown c.name ++ "'"
    ++ (match lengthArgument defaultLength c with
      | some length => ", \x7b length: " ++ length ++ " \x7d"
      | none => "")
    ++ ")"

def constraintCalls (c : Column τ) : String :=
  (if c.primaryKey then ".primaryKey()" else "")
    ++ (if c.nullable then "" else ".notNull()")
    ++ (if c.unique && !c.primaryKey then ".unique()" else "")

def referenceCall (tables : List (Table τ)) (c : Column τ) : String :=
  match c.target? tables with
  | some d =>
      ".references(() => " ++ Label.shown d.name ++ "." ++ Label.shown c.references.columnName ++ ")"
  | none => ""

def columnLine (tables : List (Table τ)) (defaultLength : String) (c : Column τ) : String :=
  "  " ++ Label.shown c.name ++ ": " ++ call (some defaultLength) c ++ constraintCalls c
    ++ referenceCall tables c ++ ","

def tableBlock (tables : List (Table τ)) (defaultLength : String) (t : Table τ) : String :=
  Text.joined "\n"
    (["export const " ++ Label.shown t.name ++ " = pgTable('" ++ Label.shown t.name ++ "', \x7b"]
      ++ t.columns.map (columnLine tables defaultLength) ++ ["\x7d);"])
    ++ "\n\n"

def usesBuilder (tables : List (Table τ)) (b : Builder) : Bool :=
  b == .pgTable || tables.any fun t => t.columns.any fun c => builder c == b

def generate (defaultLength : String) (tables : List (Table τ)) : String :=
  "import \x7b " ++ Text.joined ", " ((Builder.all.filter (usesBuilder tables)).map (·.name))
    ++ " \x7d from 'drizzle-orm/pg-core';\n\n"
    ++ Text.concat (tables.map (tableBlock tables defaultLength))

end SchemaDesign.Export.Drizzle
