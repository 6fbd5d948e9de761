import SchemaDesign.Text.UpperCase

/-! What case maps give: the image of a run or of an exception. No upper case holds a small letter. -/
namespace SchemaDesign.Text

variable {exceptions : List (Nat × List Nat)} {runs : List CaseRun} {c : Char}

/-- A code point that is moved lands in the image of a run. -/
theorem shiftCase_eq_or (runs : List CaseRun) (n : Nat) :
    shiftCase runs n = n ∨ ∃ run ∈ runs, run.2.2.2 ≤ shiftCase runs n ∧
      shiftCase runs n ≤ run.2.2.2 + (run.2.1 - run.1) := by
  induction runs with
  | nil => exact .inl rfl
  | cons run runs ih =>
    obtain ⟨lo, hi, step, target⟩ := run
    unfold shiftCase
    split
    · exact .inl rfl
    · split
      · next hrun =>
        have hle : n ≤ hi := of_decide_eq_true (Bool.and_eq_true_iff.1 hrun).1
        exact .inr ⟨_, List.mem_cons_self, Nat.le_add_right _ _,
          Nat.add_le_add_left (Nat.sub_le_sub_right hle lo) target⟩
      · exact ih.imp_right fun ⟨run, hmem, hin⟩ => ⟨run, List.mem_cons_of_mem _ hmem, hin⟩

/-- What holds of the code points of exceptions and of the shifted one holds of the image. Code points that
are no characters count as zero. -/
theorem forall_mem_expandCase {p : Nat → Prop} (hzero : p 0)
    (hexceptions : ∀ e ∈ exceptions, ∀ n ∈ e.2, p n) (hshift : p (shiftCase runs c.toNat)) :
    ∀ d ∈ expandCase exceptions runs c, p d.toNat := by
  have hchar : ∀ n, p n → p (Char.ofNat n).toNat := by
    intro n hn
    by_cases hvalid : n.isValidChar
    · rw [Char.ofNat, dif_pos hvalid]
      exact hn
    · rw [Char.ofNat, dif_neg hvalid]
      exact hzero
  unfold expandCase
  split
  · next codes hlookup =>
    obtain ⟨before, after, hsplit, -⟩ := List.lookup_eq_some_iff.1 hlookup
    have hcodes : ∀ n ∈ codes, p n := hexceptions (c.toNat, codes) (by simp [hsplit])
    rw [List.forall_mem_map]
    exact fun n hn => hchar n (hcodes n hn)
  · rw [List.forall_mem_singleton]
    exact hchar _ hshift

theorem expandCase_ne_nil (runs : List CaseRun) (c : Char) (h : ∀ e ∈ exceptions, e.2 ≠ []) :
    expandCase exceptions runs c ≠ [] := by
  unfold expandCase
  split
  · next codes hl =>
    obtain ⟨l₁, l₂, hs, -⟩ := List.lookup_eq_some_iff.1 hl
    simpa using h (c.toNat, codes) (by simp [hs])
  · simp

theorem upperOf_ne_nil (c : Char) : upperOf c ≠ [] := expandCase_ne_nil _ c (by decide +kernel)

/-- The small letters from a to z are no upper case of any character. -/
theorem upperOf_notSmall (c : Char) : ∀ d ∈ upperOf c, d.toNat < 97 ∨ 122 < d.toNat := by
  refine forall_mem_expandCase (p := fun n => n < 97 ∨ 122 < n) (.inl (by decide)) (by decide +kernel) ?_
  by_cases hsmall : 97 ≤ c.toNat ∧ c.toNat ≤ 122
  · -- the first run takes them all
    have hfirst : shiftCase upperRuns c.toNat = 65 + (c.toNat - 97) := by
      show shiftCase ((97, 122, 1, 65) :: upperRuns.tail) c.toNat = _
      rw [shiftCase, if_neg (by omega), if_pos (by simp [hsmall.2, Nat.mod_one])]
    omega
  · have hruns : ∀ run ∈ upperRuns, run.2.2.2 + (run.2.1 - run.1) < 97 ∨ 122 < run.2.2.2 := by
      decide +kernel
    rcases shiftCase_eq_or upperRuns c.toNat with hsame | ⟨run, hrun, hle, hge⟩
    · omega
    · have := hruns run hrun
      omega

end SchemaDesign.Text
