import SchemaDesign.Model.ForeignKey

/-! Writing tables as JSON documents. Every field is present. -/
namespace SchemaDesign.Document

def writeReference (r : Reference Json) : Json :=
  .obj [("tableId", r.tableId), ("columnName", r.columnName)]

def writeOption {α : Type} (write : α → Json) : Option α → Json
  | none => .null
  | some x => write x

def writeColumnAs (nullable : Json) (c : Column Json) : Json :=
  .obj [
    ("name", c.name),
    ("type", c.type),
    ("typeLength", writeOption .int c.typeLength),
    ("nullable", nullable),
    ("unique", .bool c.unique),
    ("primaryKey", .bool c.primaryKey),
    ("foreignKey", .bool c.foreignKey),
    ("references", writeReference c.references)]

def writeColumn (c : Column Json) : Json := writeColumnAs (.bool c.nullable) c

/-- A demoted foreign key, with the flag that is asked for as it was given. A primary key stays not null. -/
def writeDemoted (nullable : Json) (c : Column Json) : Json :=
  writeColumnAs (if c.primaryKey then .bool false else nullable) (c.demote nullable.isTrue)

def writeTable (t : Table Json) : Json :=
  .obj [
    ("id", t.id),
    ("name", t.name),
    ("notes", t.notes),
    ("columns", .arr (t.columns.map writeColumn)),
    ("primaryKey", writeOption (·) t.primaryKey)]

end SchemaDesign.Document
