import SchemaDesign.Model.Label

/-! Tables, their columns, and the references that foreign keys hold. -/
namespace SchemaDesign

/-- A weak pointer to a column of a table. Both parts are empty when it is unset. -/
structure Reference (τ : Type) where
  tableId : τ
  columnName : τ
deriving DecidableEq

/-- `typeLength` is the number in a type such as `varchar(100)`. A foreign key may hold the empty
reference: it then dangles. -/
structure Column (τ : Type) where
  name : τ
  type : τ
  typeLength : Option Int
  nullable : Bool
  unique : Bool
  primaryKey : Bool
  foreignKey : Bool
  references : Reference τ
deriving DecidableEq

/-- A table is told from others by its `id`; names may repeat. -/
structure Table (τ : Type) where
  id : τ
  name : τ
  notes : τ
  columns : List (Column τ)
deriving DecidableEq

namespace Reference

variable {τ σ : Type} [BEq τ] [Label τ]

def unset : Reference τ := ⟨Label.ofText "", Label.ofText ""⟩

def isSet (r : Reference τ) : Bool := !Label.isEmpty r.tableId && !Label.isEmpty r.columnName

/-- Whether both parts are the empty text. -/
def isUnset (r : Reference τ) : Bool :=
  r.tableId == Label.ofText "" && r.columnName == Label.ofText ""

def map {τ σ : Type} (f : τ → σ) (r : Reference τ) : Reference σ := ⟨f r.tableId, f r.columnName⟩

end Reference

namespace Column

def map {τ σ : Type} (f : τ → σ) (c : Column τ) : Column σ :=
  { c with name := f c.name, type := f c.type, references := c.references.map f }

end Column

namespace Table

variable {τ : Type} [BEq τ] [Label τ]

def map {τ σ : Type} (f : τ → σ) (t : Table τ) : Table σ :=
  { id := f t.id, name := f t.name, notes := f t.notes, columns := t.columns.map (·.map f) }

/-- Tables are the same if their ids are. -/
def isSame (t u : Table τ) : Bool := t.id == u.id

/-- The first column of a name. -/
def column? (t : Table τ) (name : τ) : Option (Column τ) := t.columns.find? (·.name == name)

def columnNames {τ : Type} (t : Table τ) : List τ := t.columns.map (·.name)

/-- The name of the first column that is flagged as primary key. -/
def primaryKey (t : Table τ) : Option τ :=
  (t.columns.find? (·.primaryKey)).bind fun c => Label.chosen c.name

/-- The table of an id. Of several tables with one id the last counts. -/
def withId? (ts : List (Table τ)) (id : τ) : Option (Table τ) := ts.findRev? (·.id == id)

end Table

end SchemaDesign
