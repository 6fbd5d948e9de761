import SchemaDesign.Model.ColumnType
import SchemaDesign.Model.ForeignKey
import SchemaDesign.Text.Join
import SchemaDesign.Text.Numeral

/-! Canonical SQL: one `CREATE TABLE` statement per table, its column clauses first, then the primary
key, then the foreign keys that resolve. -/
namespace SchemaDesign.Export.Sql

variable {τ : Type} [BEq τ] [Label τ]

/-- `varchar(100)`, or the bare keyword. -/
def typeClause (c : Column τ) : String :=
  match c.length? with
  | some n => c.baseType ++ "(" ++ Text.writeInt n ++ ")"
  | none => c.baseType

def columnClause (c : Column τ) : String :=
  "  " ++ Label.shown c.name ++ " " ++ typeClause c
    ++ (if c.nullable then "" else " NOT NULL")
    ++ (if c.unique && !c.primaryKey then " UNIQUE" else "")

def primaryKeyClauses (t : Table τ) : List String :=
  match t.primaryKey with
  | some name => if Label.isEmpty name then [] else ["  PRIMARY KEY (" ++ Label.shown name ++ ")"]
  | none => []

def foreignKeyClause? (tables : List (Table τ)) (c : Column τ) : Option String :=
  (c.target? tables).map fun d =>
    "  FOREIGN KEY (" ++ Label.shown c.name ++ ") REFERENCES " ++ Label.shown d.name
      ++ "(" ++ Label.shown c.references.columnName ++ ")"

def clauses (tables : List (Table τ)) (t : Table τ) : List String :=
  t.columns.map columnClause ++ primaryKeyClauses t ++ t.columns.filterMap (foreignKeyClause? tables)

/-- The statement of one table, its foreign keys resolved among `tables`. -/
def createTable (tables : List (Table τ)) (t : Table τ) : String :=
  "CREATE TABLE " ++ Label.shown t.name ++ " (\n" ++ Text.joined ",\n" (clauses tables t) ++ "\n);\n\n"

def generate (tables : List (Table τ)) : String := Text.concat (tables.map (createTable tables))

end SchemaDesign.Export.Sql
