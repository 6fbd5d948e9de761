import SchemaDesign.Api.Framework
import SchemaDesign.Store.Basic
import SchemaDesign.Text.Blank

/-! The models of request bodies: their fields in order, with the defaults of those that need not be
there. -/
namespace SchemaDesign.Api

variable (v : Validators)

def referenceModel : Validator (Reference String) :=
  let tableId := v.field (fieldless Reference.mk) "tableId" (some "") v.text
  v.model (v.field tableId "columnName" (some "") v.text)

/-- A blank text is no length. -/
def blankIsNull : Json → Json
  | .str s => if (Text.trim s.toList).isEmpty then .null else .str s
  | j => j

def column (name type : String) (typeLength : Option Int) (nullable unique primaryKey foreignKey : Bool)
    (references : Reference String) : Column String :=
  { name, type, typeLength, nullable, unique, primaryKey, foreignKey, references }

def columnModel : Validator (Column String) :=
  let name := v.field (fieldless column) "name" none v.text
  let type := v.field name "type" none v.text
  let length := v.field type "typeLength" (some none) (prepared blankIsNull (v.nullable v.integer))
  let nullable := v.field length "nullable" (some true) v.flag
  let unique := v.field nullable "unique" (some false) v.flag
  let primaryKey := v.field unique "primaryKey" (some false) v.flag
  let foreignKey := v.field primaryKey "foreignKey" (some false) v.flag
  v.model (v.field foreignKey "references" (some Reference.unset) (referenceModel v))

/-- The body that creates or replaces a table. -/
def draftModel : Validator (Draft String) :=
  let name := v.field (fieldless Draft.mk) "name" none v.text
  let notes := v.field name "notes" (some "") v.text
  let columns := v.field notes "columns" (some []) (v.list (columnModel v))
  v.model (v.field columns "primaryKey" (some none) (v.nullable v.text))

/-- The body that holds DDL text. -/
def importModel : Validator String := v.model (v.field (fieldless id) "ddl" none v.text)

end SchemaDesign.Api
