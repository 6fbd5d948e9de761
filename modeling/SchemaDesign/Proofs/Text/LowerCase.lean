import SchemaDesign.Proofs.Text.CaseMap
import SchemaDesign.Proofs.Text.Char
import SchemaDesign.Text.LowerCase

/-! The lower case of a text, and of the letters of a column type in particular: the dotted capital i
leaves a mark behind that is no letter. -/
namespace SchemaDesign.Text

theorem lowerOf_ne_nil (before : List Char) (c : Char) (after : List Char) :
    lowerOf before c after ≠ [] := by
  unfold lowerOf
  split
  · split <;> simp
  · exact expandCase_ne_nil _ _ (by simp)

theorem lower_ne_nil {s : List Char} (h : s ≠ []) : lower s ≠ [] := by
  cases s with
  | nil => exact absurd rfl h
  | cons c after =>
    intro he
    exact lowerOf_ne_nil [] c after (List.append_eq_nil_iff.1 he).1

/-- The characters of a type once it is in lower case. The last code point is the mark. -/
def typeCodes : List Nat := List.range' 97 26 ++ [305, 383, 775]

def isTypeChar (c : Char) : Bool := typeCodes.contains c.toNat

theorem lowerOf_eq {c : Char} (h : c.toNat ≠ 931) (before after : List Char) :
    lowerOf before c after = expandCase [(304, [105, 775])] lowerRuns c := by
  simp [lowerOf, h]

theorem ofNat_mem_codes {codes : List Nat} {c : Char} (h : c.toNat ∈ codes) :
    ∃ n ∈ codes, c = Char.ofNat n := ⟨c.toNat, h, (Char.ofNat_toNat c).symm⟩

/-- The lower case of a letter begins with a letter. -/
theorem lowerOf_isLetter {c : Char} (h : Ddl.isLetter c = true) (before after : List Char) :
    (lowerOf before c after).head?.any Ddl.isLetter = true ∧
      (lowerOf before c after).all isTypeChar = true := by
  have hm := mem_letterCodes h
  have hs : ∀ n ∈ letterCodes, n ≠ 931 := by decide
  have hall : ∀ n ∈ letterCodes,
      ((expandCase [(304, [105, 775])] lowerRuns (Char.ofNat n)).head?.any Ddl.isLetter = true ∧
        (expandCase [(304, [105, 775])] lowerRuns (Char.ofNat n)).all isTypeChar = true) := by
    decide +kernel
  rw [lowerOf_eq (hs _ hm)]
  obtain ⟨n, hn, rfl⟩ := ofNat_mem_codes hm
  exact hall n hn

theorem lowerAfter_isTypeChar {s : List Char} (h : ∀ c ∈ s, Ddl.isLetter c = true)
    (before : List Char) : ∀ c ∈ lowerAfter before s, isTypeChar c = true := by
  induction s generalizing before with
  | nil => simp [lowerAfter]
  | cons c s ih =>
    intro d hd
    rcases List.mem_append.1 hd with hd | hd
    · exact List.all_eq_true.1 (lowerOf_isLetter (h c List.mem_cons_self) before s).2 d hd
    · exact ih (fun e he => h e (List.mem_cons_of_mem _ he)) _ d hd

theorem lower_head_isLetter {s : List Char} (hne : s ≠ []) (h : ∀ c ∈ s, Ddl.isLetter c = true) :
    (lower s).head?.any Ddl.isLetter = true := by
  cases s with
  | nil => exact absurd rfl hne
  | cons c s =>
    have hc := (lowerOf_isLetter (h c List.mem_cons_self) [] s).1
    have hl : lower (c :: s) = lowerOf [] c s ++ lowerAfter [c] s := rfl
    cases ho : lowerOf [] c s with
    | nil => simp [ho] at hc
    | cons d t => simpa [hl, ho] using hc

/-- Types are in lower case already. -/
theorem lower_of_isTypeChar {s : List Char} (h : ∀ c ∈ s, isTypeChar c = true) : lower s = s := by
  have hs : ∀ n ∈ typeCodes, n ≠ 931 ∧
      expandCase [(304, [105, 775])] lowerRuns (Char.ofNat n) = [Char.ofNat n] := by decide +kernel
  suffices ∀ before, lowerAfter before s = s from this []
  induction s with
  | nil => exact fun _ => rfl
  | cons c s ih =>
    intro before
    obtain ⟨n, hn, rfl⟩ := ofNat_mem_codes (by simpa [isTypeChar] using h c List.mem_cons_self)
    have hne : (Char.ofNat n).toNat ≠ 931 := by
      intro he
      have := h _ List.mem_cons_self
      rw [isTypeChar, he] at this
      exact absurd this (by decide)
    rw [lowerAfter, lowerOf_eq hne, (hs n hn).2, ih fun d hd => h d (List.mem_cons_of_mem _ hd)]
    rfl

end SchemaDesign.Text
