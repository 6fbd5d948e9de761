import SchemaDesign.Model.ColumnType
import SchemaDesign.Model.Relation
import SchemaDesign.Text.Join

/-! Prisma schemas: one model per table, with its scalar fields, a relation field per foreign key that
resolves, and a back reference for each other table that points into it. -/
namespace SchemaDesign.Export.Prisma

variable {τ : Type} [BEq τ] [Label τ]

/-- Types without a counterpart are texts. -/
def fieldType (c : Column τ) : String :=
  match c.columnType? with
  | some .int => "Int"
  | some .boolean => "Boolean"
  | some .binary | some .varbinary | some .blob => "Bytes"
  | _ => "String"

/-- One table that points into another, with the first of its columns that does. -/
structure Edge (τ : Type) where
  source : Table τ
  column : Column τ
deriving DecidableEq

/-- All foreign keys that resolve into another table than their own, with the id of that table. -/
def edges (tables : List (Table τ)) : List (τ × Edge τ) :=
  tables.flatMap fun t => t.columns.filterMap fun c =>
    match c.target? tables with
    | some d => if d.id == t.id then none else some (d.id, ⟨t, c⟩)
    | none => none

/-- Of the edges into the table `id` the first from each table. -/
def backReferences (edges : List (τ × Edge τ)) (id : τ) : List (Edge τ) :=
  (edges.filter (·.1 == id)).foldl
    (fun found e => if found.any (·.source.id == e.2.source.id) then found else found ++ [e.2])
    []

def markers (c : Column τ) : List String :=
  (if c.primaryKey then ["@id"] else [])
    ++ (if c.unique && !c.primaryKey then ["@unique"] else [])
    ++ (if c.primaryKey && c.columnType? == some .int then ["@default(autoincrement())"] else [])

def scalarField (c : Column τ) : String :=
  Text.joined " "
    ((Label.shown c.name ++ " " ++ fieldType c ++ (if c.nullable then "?" else "")) :: markers c)

def relationField? (tables : List (Table τ)) (relations : List (τ × String)) (c : Column τ) :
    Option String :=
  (c.target? tables).map fun d =>
    (Assoc.get? c.name relations).getD "" ++ " " ++ capitalizeFirst (Label.shown d.name)
      ++ (if c.nullable then "?" else "")
      ++ " @relation(fields: [" ++ Label.shown c.name ++ "], references: ["
      ++ Label.shown c.references.columnName ++ "])"

/-- A unique column is held by at most one row, any other by a list of rows. -/
def backReferenceField (e : Edge τ) : String :=
  lowerFirst (Label.shown e.source.name) ++ " " ++ capitalizeFirst (Label.shown e.source.name)
    ++ (if e.column.unique then "?" else "[]")

def modelLines (tables : List (Table τ)) (links : List (τ × Edge τ)) (t : Table τ) : List String :=
  (if Label.isEmpty t.notes then [] else ["// " ++ Label.shown t.notes])
    ++ ["model " ++ capitalizeFirst (Label.shown t.name) ++ " \x7b"]
    ++ (t.columns.map scalarField
      ++ t.columns.filterMap (relationField? tables (t.relationFields tables))
      ++ (backReferences links t.id).map backReferenceField).map ("  " ++ ·)
    ++ ["\x7d"]

def modelBlock (tables : List (Table τ)) (links : List (τ × Edge τ)) (t : Table τ) : String :=
  Text.joined "\n" (modelLines tables links t) ++ "\n\n"

def preamble (provider : String) : String :=
  "generator client \x7b\n  provider = \"prisma-client-js\"\n\x7d\n\n"
    ++ "datasource db \x7b\n  provider = \"" ++ provider ++ "\"\n"
    ++ "  url      = env(\"DATABASE_URL\")\n\x7d\n\n"

def generate (provider : String) (tables : List (Table τ)) : String :=
  preamble provider ++ Text.concat (tables.map (modelBlock tables (edges tables)))

end SchemaDesign.Export.Prisma
