import SchemaDesign.Ddl.Piece

/-! How the classes of characters lie to one another: words hold no blanks, letters and decimal digits
are word characters. -/
namespace SchemaDesign.Text

section Deciding

variable {p : Char → Prop} [DecidablePred p]

-- what holds of the characters of a text is decided along the text, not along all characters
instance (priority := high) decidableForallText (s : List Char) : Decidable (∀ c ∈ s, p c) :=
  List.decidableBAll p s

instance (priority := high) decidableForallHead (o : Option Char) : Decidable (∀ c ∈ o, p c) :=
  Option.decidableForallMem o

end Deciding

/-- The code points of ranges. -/
def Ranges.codes (r : Ranges) : List Nat := r.flatMap fun p => List.range' p.1 (p.2 + 1 - p.1)

theorem Ranges.mem_codes {r : Ranges} {n : Nat} (h : r.covers n = true) : n ∈ r.codes := by
  induction r with
  | nil => simp [covers] at h
  | cons p r ih =>
    obtain ⟨lo, hi⟩ := p
    simp only [covers] at h
    split at h
    · simp at h
    · rcases Bool.or_eq_true_iff.1 h with h | h
      · have h : n ≤ hi := by simpa using h
        refine List.mem_append_left _ (List.mem_range'_1.2 ?_)
        dsimp only
        omega
      · exact List.mem_append_right _ (ih h)

theorem isWord_of_isBlank {c : Char} (h : isBlank c = true) : isWord c = false := by
  have hall : ∀ n ∈ Ranges.codes blankRanges, wordRanges.covers n = false := by decide +kernel
  exact hall _ (Ranges.mem_codes h)

theorem isBlank_of_isWord {c : Char} (h : isWord c = true) : isBlank c = false := by
  cases hb : isBlank c with
  | false => rfl
  | true => simp [isWord_of_isBlank hb] at h

/-- The letters that a type is written in, and those that fold to them. -/
def letterCodes : List Nat :=
  List.range' 65 26 ++ List.range' 97 26 ++ [304, 305, 383, 8490]

theorem mem_letterCodes {c : Char} (h : Ddl.isLetter c = true) : c.toNat ∈ letterCodes := by
  have hc : c.toNat = c.val.toNat := rfl
  have hα : c.isAlpha = (decide (c.val ≥ 'A'.val ∧ c.val ≤ 'Z'.val)
      || (decide (c.val ≥ 'a'.val) && decide (c.val ≤ 'z'.val))) := rfl
  simp only [Ddl.isLetter, hα, Bool.or_eq_true, Bool.and_eq_true, decide_eq_true_eq, beq_iff_eq,
    UInt32.le_iff_toNat_le, ge_iff_le] at h
  simp only [letterCodes, List.mem_append, List.mem_range'_1, List.mem_cons, List.not_mem_nil]
  rw [hc] at h ⊢
  have hA : 'A'.val.toNat = 65 := rfl
  have hZ : 'Z'.val.toNat = 90 := rfl
  have ha : 'a'.val.toNat = 97 := rfl
  have hz : 'z'.val.toNat = 122 := rfl
  omega

theorem isWord_of_isLetter {c : Char} (h : Ddl.isLetter c = true) : isWord c = true := by
  have hall : ∀ n ∈ letterCodes, wordRanges.covers n = true := by decide +kernel
  exact hall _ (mem_letterCodes h)

/-- A decimal digit of the ten that numbers are written in. -/
def isDecimal (c : Char) : Bool := (List.range' 48 10).contains c.toNat

theorem isDecimal_spec {c : Char} (h : isDecimal c = true) :
    isDigit c = true ∧ isWord c = true ∧ isBlank c = false ∧ c ≠ '_' ∧
      digitValue? c = some (c.toNat - 48) := by
  have hall : ∀ n ∈ List.range' 48 10, digitRanges.covers n = true ∧ wordRanges.covers n = true ∧
      blankRanges.covers n = false ∧ n ≠ 95 ∧
      (digitRanges.find? fun r => r.1 ≤ n && n ≤ r.2).map (fun r => (n - r.1) % 10)
        = some (n - 48) := by decide +kernel
  obtain ⟨h1, h2, h3, h4, h5⟩ := hall c.toNat (by simpa [isDecimal] using h)
  exact ⟨h1, h2, h3, fun he => h4 (by rw [he]; rfl), h5⟩

end SchemaDesign.Text
