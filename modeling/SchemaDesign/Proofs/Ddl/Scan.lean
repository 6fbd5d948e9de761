import SchemaDesign.Ddl.Piece
import SchemaDesign.Ddl.Statement

/-! What the scanning steps find: runs of one class of characters, names of word characters, and the
parts of a column definition. -/
namespace SchemaDesign.Ddl
open Text

theorem run_eq_some {p : Char → Bool} {s found rest : List Char} :
    run p s = some (found, rest) ↔
      found = s.takeWhile p ∧ found ≠ [] ∧ rest = s.dropWhile p := by
  unfold run
  split
  · next h => simp +contextual [h]
  · next h =>
    simp only [Option.some.injEq, Prod.mk.injEq]
    constructor
    · rintro ⟨rfl, rfl⟩; exact ⟨rfl, fun he => h he, rfl⟩
    · rintro ⟨rfl, -, rfl⟩; exact ⟨rfl, rfl⟩

theorem run_ne_nil {p : Char → Bool} {s found rest : List Char} (h : run p s = some (found, rest)) :
    found ≠ [] := (run_eq_some.1 h).2.1

theorem run_all {p : Char → Bool} {s found rest : List Char} (h : run p s = some (found, rest)) :
    ∀ c ∈ found, p c = true := by
  obtain ⟨rfl, -, -⟩ := run_eq_some.1 h
  exact fun c hc => List.all_eq_true.1 List.all_takeWhile c hc

theorem run_append {p : Char → Bool} {s found rest : List Char} (h : run p s = some (found, rest)) :
    found ++ rest = s := by
  obtain ⟨rfl, -, rfl⟩ := run_eq_some.1 h
  exact List.takeWhile_append_dropWhile

theorem spacedMark_eq_some {m : Char} {s inner : List Char} (h : spacedMark m s = some inner) :
    ∃ b, (∀ c ∈ b, isBlank c = true) ∧ b ++ m :: inner = s := by
  refine ⟨s.takeWhile isBlank, fun c hc => List.all_eq_true.1 List.all_takeWhile c hc, ?_⟩
  have hskip : skipBlanks s = m :: inner := by
    unfold spacedMark at h
    cases hd : skipBlanks s with
    | nil => rw [hd] at h; cases h
    | cons d u =>
      rw [hd, mark] at h
      split at h
      · next hm =>
        cases h
        rw [beq_iff_eq.1 hm]
      · cases h
  rw [← hskip]
  exact List.takeWhile_append_dropWhile

theorem spacedMark_suffix_cons {m : Char} {s r : List Char} (h : spacedMark m s = some r) :
    m :: r <:+ s := by
  obtain ⟨b, -, rfl⟩ := spacedMark_eq_some h
  exact List.suffix_append b _

theorem name_eq_some {s found rest : List Char} (h : name s = some (found, rest)) :
    ∃ r, run isWord (skipQuote s) = some (found, r) ∧ rest = skipQuote r := by
  obtain ⟨⟨f, r⟩, hr, he⟩ := Option.map_eq_some_iff.1 h
  cases he
  exact ⟨r, hr, rfl⟩

/-- A name is a word. -/
theorem name_word {s found rest : List Char} (h : name s = some (found, rest)) :
    found ≠ [] ∧ ∀ c ∈ found, isWord c = true := by
  obtain ⟨r, hr, -⟩ := name_eq_some h
  exact ⟨run_ne_nil hr, run_all hr⟩

theorem qualifiedName_word {s found rest : List Char} (h : qualifiedName s = some (found, rest)) :
    found ≠ [] ∧ ∀ c ∈ found, isWord c = true := by
  obtain ⟨⟨first, r⟩, hn, h⟩ := Option.bind_eq_some_iff.1 h
  cases hq : (mark '.' r).bind name with
  | none =>
    simp only [hq, Option.pure_def, Option.some.injEq, Prod.mk.injEq] at h
    exact h.1 ▸ name_word hn
  | some second =>
    obtain ⟨t, -, h2⟩ := Option.bind_eq_some_iff.1 hq
    simp only [hq, Option.pure_def, Option.some.injEq] at h
    exact name_word (h ▸ h2)

theorem header_word {s table rest : List Char} (h : header s = some (table, rest)) :
    table ≠ [] ∧ ∀ c ∈ table, isWord c = true := by
  obtain ⟨t, -, h⟩ := Option.bind_eq_some_iff.1 h
  obtain ⟨u, -, h⟩ := Option.bind_eq_some_iff.1 h
  obtain ⟨⟨n, v⟩, hn, h⟩ := Option.bind_eq_some_iff.1 h
  obtain ⟨w, -, h⟩ := Option.bind_eq_some_iff.1 h
  cases h
  exact qualifiedName_word hn

theorem parenthesisedName_word {s found rest : List Char}
    (h : parenthesisedName s = some (found, rest)) : found ≠ [] ∧ ∀ c ∈ found, isWord c = true := by
  obtain ⟨t, -, h⟩ := Option.bind_eq_some_iff.1 h
  obtain ⟨⟨f, r⟩, hn, h⟩ := Option.bind_eq_some_iff.1 h
  obtain ⟨w, -, h⟩ := Option.bind_eq_some_iff.1 h
  cases h
  exact name_word hn

/-- A definition is made up of a name, after at most one quote, and a type behind a gap. -/
theorem definition?_eq_some {s : List Char} {d : Definition} (h : definition? s = some d) :
    ∃ r t u, run isNameChar (skipQuote s) = some (d.name, r) ∧ gap (skipQuote r) = some t ∧
      run isLetter t = some (d.type, u) ∧ (d.length, d.modifiers) = qualifier u := by
  obtain ⟨⟨n, r⟩, hn, h⟩ := Option.bind_eq_some_iff.1 h
  obtain ⟨t, ht, h⟩ := Option.bind_eq_some_iff.1 h
  obtain ⟨⟨y, u⟩, hy, h⟩ := Option.bind_eq_some_iff.1 h
  cases h
  exact ⟨r, t, u, hn, ht, hy, rfl⟩

end SchemaDesign.Ddl
