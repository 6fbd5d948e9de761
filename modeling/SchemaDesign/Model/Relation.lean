import SchemaDesign.Assoc
import SchemaDesign.Model.ForeignKey
import SchemaDesign.Text.LowerCase
import SchemaDesign.Text.UpperCase

/-! Names that generated code makes of table and column names: class names, and a relation field for
each foreign key that resolves. -/
namespace SchemaDesign

/-- `orders` as a class name: `Orders`. -/
def capitalizeFirst (s : String) : String :=
  match s.toList with
  | [] => ""
  | c :: rest => String.ofList (Text.upperOf c ++ rest)

/-- `Customers` as a field name: `customers`. -/
def lowerFirst (s : String) : String :=
  match s.toList with
  | [] => ""
  | c :: rest => String.ofList (Text.lowerOf [] c [] ++ rest)

namespace Table

variable {τ : Type} [BEq τ] [Label τ]

/-- The target of each foreign key that resolves, by column name. -/
def relationTargets (tables : List (Table τ)) (t : Table τ) : List (τ × Table τ) :=
  t.columns.foldl
    (fun found c =>
      match c.target? tables with
      | some d => Assoc.put c.name d found
      | none => found)
    []

/-- The relation field of each foreign key, named for its target. Where several columns point into one
table the column name is appended. -/
def relationFields (tables : List (Table τ)) (t : Table τ) : List (τ × String) :=
  let targets := t.relationTargets tables
  targets.map fun (name, d) =>
    let field := lowerFirst (Label.shown d.name)
    (name,
      if 1 < targets.countP fun other => other.2.id == d.id then
        field ++ capitalizeFirst (Label.shown name)
      else field)

end Table

end SchemaDesign
