import SchemaDesign.Proofs.Text.Blank
import SchemaDesign.Proofs.Text.Char
import SchemaDesign.Proofs.Validation

/-! Exactly what the gate tells of a draft: what is wrong with the table as a whole, and then of each
column, in order, one fault of its name at most and one of its type at most. A name is held against those
of all columns before it, sound or not. -/
namespace SchemaDesign.Validation

/-- What is wrong with the name of the column at a place of a list, counted from zero. Of several faults
the first one is told. -/
def nameFault? (cs : List (Column String)) (place : Nat) (c : Column String) : Option (Problem String) :=
  if c.name = "" then some (.nameMissing (place + 1))
  else if isValidName c.name = false then some (.nameInvalid (place + 1) c.name)
  else if ∃ earlier ∈ cs.take place, earlier.name = c.name then some (.nameDuplicate (place + 1) c.name)
  else none

def typeFault? (place : Nat) (c : Column String) : Option (Problem String) :=
  if c.type = "" then some (.typeMissing (place + 1)) else none

/-- What is wrong with the column at a place. -/
def columnFaults (cs : List (Column String)) (place : Nat) (c : Column String) : List (Problem String) :=
  (nameFault? cs place c).toList ++ (typeFault? place c).toList

theorem columnProblems_eq {before rest : List (Column String)} {seen : List String} {c : Column String}
    (hseen : ∀ name, name ∈ seen ↔ name ∈ before.map (·.name)) :
    columnProblems seen (before.length + 1) c = columnFaults (before ++ c :: rest) before.length c := by
  have hearlier : (seen.any (· == c.name) = true) ↔
      ∃ earlier ∈ (before ++ c :: rest).take before.length, earlier.name = c.name := by
    rw [List.take_left, ← List.mem_map, ← hseen]
    simp
  unfold columnProblems nameProblems columnFaults nameFault? typeFault?
  simp only [hearlier, Label.isEmpty_string, Label.shown_string, beq_iff_eq, Bool.not_eq_eq_eq_not,
    Bool.not_true]
  split_ifs <;> rfl

/-- The names that are held against a column are those of the columns before it. -/
theorem columnsProblems_eq (before cs : List (Column String)) {seen : List String}
    (hseen : ∀ name, name ∈ seen ↔ name ∈ before.map (·.name)) :
    columnsProblems seen (before.length + 1) cs =
      (cs.zipIdx before.length).flatMap fun p => columnFaults (before ++ cs) p.2 p.1 := by
  induction cs generalizing before seen with
  | nil => rfl
  | cons c cs ih =>
    have hnext : ∀ name, name ∈ c.name :: seen ↔ name ∈ (before ++ [c]).map (·.name) := by
      intro name
      rw [List.mem_cons, hseen, List.map_append, List.mem_append, List.map_singleton,
        List.mem_singleton, or_comm]
    have hrest := ih (before ++ [c]) hnext
    rw [List.length_append, List.length_singleton, List.append_assoc, List.singleton_append] at hrest
    rw [columnsProblems, columnProblems_eq hseen, hrest, List.zipIdx_cons, List.flatMap_cons]

/-- The problems of a draft are those of the table, followed by those of each column in order. -/
theorem problems_exact (name : String) (cs : List (Column String)) :
    (problems name cs = [] ↔
      (∃ ch ∈ name.toList, Text.isBlank ch = false) ∧ cs ≠ [] ∧ (∀ c ∈ cs, isValidColumn c = true) ∧
        (cs.map (·.name)).Nodup) ∧
    problems name cs =
      (if ∀ ch ∈ name.toList, Text.isBlank ch = true then [.tableNameMissing] else []) ++
      (if cs = [] then [.noColumns] else []) ++
      cs.zipIdx.flatMap fun p => columnFaults cs p.2 p.1 := by
  constructor
  · have hname : Text.trim name.toList ≠ [] ↔ ∃ ch ∈ name.toList, Text.isBlank ch = false := by
      simp only [ne_eq, Text.trim_eq_nil_iff, not_forall, exists_prop, Bool.not_eq_true]
    rw [problems_eq_nil, hname]
  · have hcolumns := @columnsProblems_eq [] cs [] fun _ => Iff.rfl
    unfold problems
    simp only [missing_iff, Text.trim_eq_nil_iff, List.isEmpty_iff]
    exact congrArg _ hcolumns

/-- A column takes its name even if it lacks a type, and it may lack both. -/
example : problems " " [⟨"", "int", none, true, false, false, false, Reference.unset⟩,
      ⟨"line2", "text", none, true, false, false, false, Reference.unset⟩,
      ⟨"a", "", none, true, false, false, false, Reference.unset⟩,
      ⟨"a", "int", none, true, false, false, false, Reference.unset⟩,
      ⟨"", "", none, true, false, false, false, Reference.unset⟩] =
    [.tableNameMissing, .nameMissing 1, .nameInvalid 2 "line2", .typeMissing 3, .nameDuplicate 4 "a",
      .nameMissing 5, .typeMissing 5] := by
  decide +kernel

end SchemaDesign.Validation
