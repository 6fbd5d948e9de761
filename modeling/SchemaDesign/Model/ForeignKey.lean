import SchemaDesign.Model.Table

/-! Setting, resolving and giving up the reference of a foreign key. -/
namespace SchemaDesign.Column

variable {τ : Type} [BEq τ] [Label τ]

/-- Points the column at a column of `target`, whose type and length it takes; a missing name is filled in.
If the target has no such column the reference stays half set. -/
def link (c : Column τ) (target : Table τ) (name : τ) : Column τ :=
  match target.column? name with
  | none => { c with foreignKey := true, references := ⟨target.id, Label.ofText ""⟩ }
  | some d =>
      { c with
        name := if Label.isEmpty c.name then d.name else c.name
        type := d.type
        typeLength := d.typeLength
        foreignKey := true
        references := ⟨target.id, name⟩ }

def unlink (c : Column τ) : Column τ := { c with foreignKey := false, references := Reference.unset }

/-- The table that a foreign key points into, provided the column it names is there. -/
def target? (tables : List (Table τ)) (c : Column τ) : Option (Table τ) :=
  if c.foreignKey && c.references.isSet then
    (Table.withId? tables c.references.tableId).filter fun t =>
      (t.column? c.references.columnName).isSome
  else none

/-- A foreign key whose target is gone becomes a plain unique column; a primary key stays not null. -/
def demote (c : Column τ) (nullable : Bool) : Column τ :=
  { c with
    unique := true
    nullable := if c.primaryKey then false else nullable
    foreignKey := false
    references := Reference.unset }

end SchemaDesign.Column
