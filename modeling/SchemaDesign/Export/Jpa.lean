import SchemaDesign.Model.ColumnType
import SchemaDesign.Model.Relation
import SchemaDesign.Text.Join

/-! Spring entities: one annotated class per table. A table without a primary key gets an identity of
its own, and a foreign key that resolves becomes a many-to-one field. -/
namespace SchemaDesign.Export.Jpa

variable {τ : Type} [BEq τ] [Label τ]

/-- Types without a counterpart are texts. -/
def fieldType (c : Column τ) : String :=
  match c.columnType? with
  | some .int => "Integer"
  | some .boolean => "Boolean"
  | some .binary | some .varbinary | some .blob => "byte[]"
  | _ => "String"

def generatedValue : String := "@GeneratedValue(strategy = GenerationType.IDENTITY)"

/-- The lines of a field: its annotations, its declaration and a blank line. -/
def field (annotations : List String) (declaration : String) : List String :=
  annotations.map ("    " ++ ·) ++ ["    " ++ declaration, ""]

def identityAnnotations (c : Column τ) : List String :=
  if c.primaryKey then
    "@Id" :: if c.columnType? = some .int then [generatedValue] else []
  else []

/-- The constraints of a column that is not the primary key. -/
def constraintAttributes (c : Column τ) : List String :=
  if c.primaryKey then []
  else (if c.unique then ["unique = true"] else []) ++ (if c.nullable then [] else ["nullable = false"])

def columnAnnotations (c : Column τ) : List String :=
  if c.primaryKey then []
  else
    match constraintAttributes c with
    | [] => ["@Column"]
    | attributes => ["@Column(" ++ Text.joined ", " attributes ++ ")"]

def joinAnnotation (c : Column τ) : String :=
  "@JoinColumn("
    ++ Text.joined ", "
      (["name = \"" ++ Label.shown c.name ++ "\"",
        "referencedColumnName = \"" ++ Label.shown c.references.columnName ++ "\""]
        ++ constraintAttributes c)
    ++ ")"

/-- What a column is declared as: the relation field of its target, or a field of its own type. -/
def declaration (tables : List (Table τ)) (relations : List (τ × String)) (c : Column τ) : String :=
  match c.target? tables with
  | some d =>
      "private " ++ capitalizeFirst (Label.shown d.name) ++ " "
        ++ (Assoc.get? c.name relations).getD "" ++ ";"
  | none => "private " ++ fieldType c ++ " " ++ Label.shown c.name ++ ";"

def columnField (tables : List (Table τ)) (relations : List (τ × String)) (c : Column τ) : List String :=
  field
    (identityAnnotations c
      ++ (if (c.target? tables).isSome then ["@ManyToOne", joinAnnotation c] else columnAnnotations c))
    (declaration tables relations c)

/-- The name of the identity field of a table without a primary key. -/
def identityName (t : Table τ) : String :=
  if (t.column? (Label.ofText "id")).isSome then "generatedId" else "id"

def identityField (t : Table τ) : List String :=
  match t.primaryKey with
  | none => field ["@Id", generatedValue] ("private Long " ++ identityName t ++ ";")
  | some _ => []

def entityLines (tables : List (Table τ)) (t : Table τ) : List String :=
  ["@Entity",
    "@Table(name = \"" ++ Label.shown t.name ++ "\")",
    "@Data",
    "public class " ++ capitalizeFirst (Label.shown t.name) ++ " \x7b",
    ""]
    ++ identityField t
    ++ t.columns.flatMap (columnField tables (t.relationFields tables))
    ++ (if Label.isEmpty t.notes then [] else ["    // " ++ Label.shown t.notes])
    ++ ["\x7d"]

def entity (tables : List (Table τ)) (t : Table τ) : String :=
  Text.joined "\n" (entityLines tables t) ++ "\n\n"

def generate (package : String) (tables : List (Table τ)) : String :=
  "package " ++ package ++ ";\n\nimport javax.persistence.*;\nimport lombok.Data;\n\n"
    ++ Text.concat (tables.map (entity tables))

end SchemaDesign.Export.Jpa
