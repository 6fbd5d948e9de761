import SchemaDesign.Model.Table
import SchemaDesign.Model.TableId

/-! The store of a schema: its tables in the order in which they were added, and the ids of tables to
come. -/
namespace SchemaDesign

structure Store (τ : Type) where
  tables : List (Table τ)
  ids : TableId.Supply

/-- What somebody asks a table to be. -/
structure Draft (τ : Type) where
  name : τ
  notes : τ
  columns : List (Column τ)
  primaryKey : Option τ
deriving DecidableEq

namespace Store

variable {τ : Type} [BEq τ] [Label τ]

def empty (ids : TableId.Supply) : Store τ := ⟨[], ids⟩

/-- The first table of an id. -/
def get? (s : Store τ) (id : τ) : Option (Table τ) := s.tables.find? (·.id == id)

def withName (s : Store τ) (name : τ) : List (Table τ) := s.tables.filter (·.name == name)

def clear (s : Store τ) : Store τ := { s with tables := [] }

end Store

end SchemaDesign
