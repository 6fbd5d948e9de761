import SchemaDesign.Proofs.Export.Relinking

/-! References that lead nowhere: no generated code shows whether they are there. -/
namespace SchemaDesign

variable {τ : Type} [BEq τ] [Label τ]

/-- A column that does not resolve among the tables gives up being a foreign key. -/
def Column.settled (ts : List (Table τ)) (c : Column τ) : Column τ :=
  if (c.target? ts).isSome then c else c.unlink

/-- The tables without the references that are unset, set in half, or lead to a table or a column
that is not there. -/
def withoutDangling (ts : List (Table τ)) : List (Table τ) :=
  ts.map fun t => { t with columns := t.columns.map (Column.settled ts) }

theorem Column.settled_eq (ts : List (Table τ)) (c : Column τ) :
    c.settled ts =
      { c with foreignKey := (c.settled ts).foreignKey, references := (c.settled ts).references } := by
  unfold Column.settled
  split <;> rfl

theorem Column.target?_unlink (ts : List (Table τ)) (c : Column τ) : c.unlink.target? ts = none := by
  simp [Column.target?, Column.unlink]

/-- Giving up the references that lead nowhere leaves every other one where it led. -/
def settling (ts : List (Table τ)) : Relinking ts where
  newId := id
  newColumn := Column.settled ts
  newId_beq _ _ := rfl
  newColumn_eq := Column.settled_eq ts
  target?_eq c := by
    have hname (c : Column τ) : (c.settled ts).name = c.name := by rw [Column.settled_eq]
    cases h : c.target? ts with
    | none =>
      have hc : c.settled ts = c.unlink := by simp [Column.settled, h]
      rw [hc, Column.target?_unlink]
      rfl
    | some d =>
      have hc : c.settled ts = c := by simp [Column.settled, h]
      have hid : ∀ a b : τ, (id a == id b) = (a == b) := fun _ _ => rfl
      rw [hc, Column.target?_relink hid hname rfl rfl rfl rfl ts, h]
  columnName_eq c d h := by simp [Column.settled, h]

theorem settling_tables (ts : List (Table τ)) : (settling ts).tables = withoutDangling ts := rfl

namespace Export

/-- All four kinds of code are the same with and without the references that lead nowhere, whatever
the ids and names of the tables are and whatever is asked for besides. -/
theorem code_withoutDangling (ts : List (Table τ)) :
    Sql.generate (withoutDangling ts) = Sql.generate ts ∧
    (∀ length, Drizzle.generate length (withoutDangling ts) = Drizzle.generate length ts) ∧
    (∀ package, Jpa.generate package (withoutDangling ts) = Jpa.generate package ts) ∧
    (∀ provider, Prisma.generate provider (withoutDangling ts) = Prisma.generate provider ts) := by
  rw [← settling_tables]
  exact ⟨Sql.generate_relinked _, Drizzle.generate_relinked _, Jpa.generate_relinked _,
    Prisma.generate_relinked _⟩

end Export

end SchemaDesign
