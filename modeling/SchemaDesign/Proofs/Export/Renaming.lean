import Mathlib.Logic.Equiv.Basic
import SchemaDesign.Proofs.Export.Relinking

/-! Ids as generated code sees them: it asks which of them are the same and which are empty, and shows
none. Code stays the same when ids are renamed. -/
namespace SchemaDesign

variable {τ : Type} [BEq τ] [Label τ]

/-- The column with the id renamed that its reference holds. -/
def Column.renameId (rename : τ → τ) (c : Column τ) : Column τ :=
  { c with references := { c.references with tableId := rename c.references.tableId } }

/-- The table with its own id and all ids renamed that its columns refer to. -/
def Table.renameId (rename : τ → τ) (t : Table τ) : Table τ :=
  { t with id := rename t.id, columns := t.columns.map (Column.renameId rename) }

/-- Under other ids every reference leads where it led, or still nowhere. -/
def Relinking.ofRename {rename : τ → τ} (same : ∀ a b, (rename a == rename b) = (a == b))
    (empty : ∀ a, Label.isEmpty (rename a) = Label.isEmpty a) (ts : List (Table τ)) :
    Relinking ts where
  newId := rename
  newColumn := Column.renameId rename
  newId_beq := same
  newColumn_eq _ := rfl
  target?_eq c := by
    have hname : ∀ c, (Column.renameId rename c).name = c.name := fun _ => rfl
    have hkey : (c.renameId rename).foreignKey = c.foreignKey := rfl
    have hset : (c.renameId rename).references.isSet = c.references.isSet := by
      simp [Reference.isSet, Column.renameId, empty]
    exact Column.target?_relink same hname hkey hset rfl rfl ts
  columnName_eq _ _ _ := rfl

namespace Export

/-- All four kinds of code are the same under other ids, if ids that differ stay different and none but
an empty one becomes empty. Ids may repeat, and references may hold ids of no table. -/
theorem code_renameId (rename : τ → τ) (same : ∀ a b, (rename a == rename b) = (a == b))
    (empty : ∀ a, Label.isEmpty (rename a) = Label.isEmpty a) (ts : List (Table τ)) :
    Sql.generate (ts.map (Table.renameId rename)) = Sql.generate ts ∧
    (∀ length, Drizzle.generate length (ts.map (Table.renameId rename)) = Drizzle.generate length ts) ∧
    (∀ package, Jpa.generate package (ts.map (Table.renameId rename)) = Jpa.generate package ts) ∧
    (∀ provider,
      Prisma.generate provider (ts.map (Table.renameId rename)) = Prisma.generate provider ts) := by
  have htables : (Relinking.ofRename same empty ts).tables = ts.map (Table.renameId rename) := rfl
  rw [← htables]
  exact ⟨Sql.generate_relinked _, Drizzle.generate_relinked _, Jpa.generate_relinked _,
    Prisma.generate_relinked _⟩

/-- Two tables that point at each other, one of them also at itself and at an id of no table. -/
def mutualTables : List (Table String) :=
  [⟨"left", "users", "",
      [⟨"id", "int", none, false, true, true, false, Reference.unset⟩,
       ⟨"post", "int", none, true, false, false, true, ⟨"right", "id"⟩⟩,
       ⟨"boss", "int", none, true, false, false, true, ⟨"left", "id"⟩⟩,
       ⟨"lost", "int", none, true, false, false, true, ⟨"gone", "id"⟩⟩]⟩,
   ⟨"right", "posts", "",
      [⟨"id", "int", none, false, true, true, false, Reference.unset⟩,
       ⟨"author", "int", none, true, false, false, true, ⟨"left", "id"⟩⟩]⟩]

/-- The ids of the two tables change places. -/
theorem code_renameId_mutualTables :
    mutualTables.map (Table.renameId (Equiv.swap "left" "right")) ≠ mutualTables ∧
    (∀ a b : String, (Equiv.swap "left" "right" a == Equiv.swap "left" "right" b) = (a == b)) ∧
    (∀ a : String, Label.isEmpty (Equiv.swap "left" "right" a) = Label.isEmpty a) ∧
    Sql.generate (mutualTables.map (Table.renameId (Equiv.swap "left" "right"))) =
      Sql.generate mutualTables ∧
    Prisma.generate "postgresql" (mutualTables.map (Table.renameId (Equiv.swap "left" "right"))) =
      Prisma.generate "postgresql" mutualTables := by
  have hsame (a b : String) :
      (Equiv.swap "left" "right" a == Equiv.swap "left" "right" b) = (a == b) := by
    rw [Bool.eq_iff_iff, beq_iff_eq, beq_iff_eq, EmbeddingLike.apply_eq_iff_eq]
  have hfixed : Equiv.swap "left" "right" "" = "" :=
    Equiv.swap_apply_of_ne_of_ne (by decide) (by decide)
  have hempty (a : String) : Label.isEmpty (Equiv.swap "left" "right" a) = Label.isEmpty a := by
    have h := hsame a ""
    rwa [hfixed] at h
  obtain ⟨hsql, -, -, hprisma⟩ := code_renameId _ hsame hempty mutualTables
  exact ⟨by decide, hsame, hempty, hsql, hprisma "postgresql"⟩

end Export

end SchemaDesign
