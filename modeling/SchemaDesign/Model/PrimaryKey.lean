import SchemaDesign.Model.Table

/-! Choosing the primary key of a table. -/
namespace SchemaDesign.PrimaryKey

variable {τ : Type} [BEq τ] [Label τ]

/-- Flags the columns of a name, which become unique and not null, and no other column. -/
def assign (name : Option τ) (columns : List (Column τ)) : List (Column τ) :=
  columns.map fun c =>
    if name.any (c.name == ·) then { c with primaryKey := true, nullable := false, unique := true }
    else { c with primaryKey := false }

/-- The preferred name if a column has it, else the name of the first column flagged already. -/
def choose (preferred : Option τ) (columns : List (Column τ)) : Option τ :=
  if preferred.any fun p => columns.any (·.name == p) then preferred
  else (columns.find? (·.primaryKey)).bind fun c => Label.chosen c.name

/-- Leaves at most one name flagged. -/
def normalise (preferred : Option τ) (columns : List (Column τ)) : List (Column τ) :=
  assign (choose preferred columns) columns

end SchemaDesign.PrimaryKey
