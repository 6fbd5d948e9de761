import Mathlib.Algebra.Group.Nat.Defs
import Mathlib.Data.List.TakeWhile
import SchemaDesign.Proofs.Result
import SchemaDesign.Proofs.Text.Char

/-! A number that is written is read again, as long as its digits are not too many; a number that is
read has no more digits than its numeral had; and digits fail to be read only where they are too many. -/
namespace SchemaDesign.Text

theorem isDecimal_digitChar : ∀ n < 10, isDecimal (Nat.digitChar n) = true ∧
    (Nat.digitChar n).toNat - 48 = n := by decide

theorem decimal_isDecimal (n : Nat) : ∀ c ∈ decimal n, isDecimal c = true := by
  fun_induction decimal n with
  | case1 n h =>
    intro c hc
    rw [List.mem_singleton.1 hc]
    exact (isDecimal_digitChar n h).1
  | case2 n h ih =>
    intro c hc
    rcases List.mem_append.1 hc with hc | hc
    · exact ih c hc
    · rw [List.mem_singleton.1 hc]
      exact (isDecimal_digitChar _ (Nat.mod_lt _ (by decide))).1

theorem decimal_ne_nil (n : Nat) : decimal n ≠ [] := by
  unfold decimal
  split <;> simp

theorem ofDigits_decimal (n : Nat) : ofDigits ((decimal n).map fun c => c.toNat - 48) = n := by
  fun_induction decimal n with
  | case1 n h => simp [ofDigits, (isDecimal_digitChar n h).2]
  | case2 n h ih =>
    have hd := (isDecimal_digitChar (n % 10) (Nat.mod_lt _ (by decide))).2
    simp only [ofDigits, List.map_append, List.map_cons, List.map_nil, List.foldl_append,
      List.foldl_cons, List.foldl_nil, hd] at ih ⊢
    rw [ih]
    omega

theorem groupedDigits?_of_isDecimal {s : List Char} (hne : s ≠ [])
    (h : ∀ c ∈ s, isDecimal c = true) :
    groupedDigits? s = some (s.map fun c => c.toNat - 48) := by
  fun_induction groupedDigits? s with
  | case1 => exact absurd rfl hne
  | case2 c => simp [(isDecimal_spec (h c List.mem_cons_self)).2.2.2.2]
  | case3 c rest _ => exact absurd (h '_' (by simp)) (by decide)
  | case4 c rest hrest _ ih =>
    have hr : rest ≠ [] := fun he => hrest (by rw [he])
    rw [ih hr fun d hd => h d (List.mem_cons_of_mem _ hd),
      (isDecimal_spec (h c List.mem_cons_self)).2.2.2.2]
    rfl

theorem readNat_decimal {n : Nat} (h : (decimal n).length ≤ maxDigits) :
    readNat (decimal n) = .ok n := by
  have hall : ∀ c ∈ decimal n, (isDigit c || c == '_') = true := fun c hc => by
    simp [(isDecimal_spec (decimal_isDecimal n c hc)).1]
  have htake : (decimal n).takeWhile (fun c => isDigit c || c == '_') = decimal n :=
    List.takeWhile_eq_self_iff.2 hall
  have hdrop : (decimal n).dropWhile (fun c => isDigit c || c == '_') = [] :=
    List.dropWhile_eq_nil_iff.2 hall
  have hlen : ¬ maxDigits < ((decimal n).map fun c => c.toNat - 48).length := by
    simpa using h
  simp only [readNat, htake, hdrop,
    groupedDigits?_of_isDecimal (decimal_ne_nil n) (decimal_isDecimal n), if_neg hlen,
    List.all_nil, if_true, ofDigits_decimal]

theorem groupedDigits?_lt {s : List Char} {ds : List Nat} (h : groupedDigits? s = some ds) :
    ∀ d ∈ ds, d < 10 := by
  have hv : ∀ {c d}, digitValue? c = some d → d < 10 := by
    intro c d hd
    obtain ⟨r, -, rfl⟩ := Option.map_eq_some_iff.1 hd
    exact Nat.mod_lt _ (by decide)
  fun_induction groupedDigits? s generalizing ds with
  | case1 => simp at h
  | case2 c =>
    obtain ⟨d, hd, rfl⟩ := Option.map_eq_some_iff.1 h
    simpa using hv hd
  | case3 c rest ih =>
    obtain ⟨d, hd, h⟩ := Option.bind_eq_some_iff.1 h
    obtain ⟨es, hes, h⟩ := Option.bind_eq_some_iff.1 h
    cases h
    simpa using ⟨hv hd, ih hes⟩
  | case4 c rest _ _ ih =>
    obtain ⟨d, hd, h⟩ := Option.bind_eq_some_iff.1 h
    obtain ⟨es, hes, h⟩ := Option.bind_eq_some_iff.1 h
    cases h
    simpa using ⟨hv hd, ih hes⟩

theorem ofDigits_lt {ds : List Nat} (h : ∀ d ∈ ds, d < 10) : ofDigits ds < 10 ^ ds.length := by
  suffices ∀ n, ds.foldl (fun n d => 10 * n + d) n < (n + 1) * 10 ^ ds.length by
    simpa [ofDigits] using this 0
  induction ds with
  | nil => simp
  | cons d ds ih =>
    intro n
    have hd := h d List.mem_cons_self
    have ih := ih (fun e he => h e (List.mem_cons_of_mem _ he)) (10 * n + d)
    calc ds.foldl (fun n d => 10 * n + d) (10 * n + d)
        < (10 * n + d + 1) * 10 ^ ds.length := ih
      _ ≤ (10 * (n + 1)) * 10 ^ ds.length := Nat.mul_le_mul_right _ (by omega)
      _ = (n + 1) * 10 ^ (ds.length + 1) := by rw [Nat.pow_succ]; ac_rfl

theorem length_decimal_le {n k : Nat} (hk : 0 < k) (h : n < 10 ^ k) : (decimal n).length ≤ k := by
  induction k generalizing n with
  | zero => exact absurd hk (by decide)
  | succ k ih =>
    unfold decimal
    split
    · simp
    · next hn =>
      have hk : 0 < k := by
        rcases Nat.eq_zero_or_pos k with rfl | hk
        · simp at h; omega
        · exact hk
      have hlt : n / 10 < 10 ^ k := Nat.div_lt_of_lt_mul (by rwa [Nat.pow_succ, Nat.mul_comm] at h)
      have := ih hk hlt
      simpa using this

theorem lt_pow_length_decimal (n : Nat) : n < 10 ^ (decimal n).length := by
  fun_induction decimal n with
  | case1 n h => simpa using h
  | case2 n h ih =>
    rw [List.length_append, List.length_singleton, Nat.pow_succ]
    omega

theorem pow_length_decimal_le {n : Nat} (hn : 0 < n) : 10 ^ ((decimal n).length - 1) ≤ n := by
  by_contra hlt
  rcases Nat.eq_zero_or_pos ((decimal n).length - 1) with hone | hmany
  · rw [hone] at hlt
    omega
  · have hshort := length_decimal_le hmany (Nat.lt_of_not_le hlt)
    omega

theorem length_decimal_of_readNat {s : List Char} {n : Nat} (h : readNat s = .ok n) :
    (decimal n).length ≤ maxDigits := by
  unfold readNat at h
  split at h
  · cases h
  · next ds hds =>
    split at h
    · cases h
    · next hlen =>
      split at h
      · cases h
        have hlt := ofDigits_lt (groupedDigits?_lt hds)
        exact length_decimal_le (by decide)
          (Nat.lt_of_lt_of_le hlt (Nat.pow_le_pow_right (by decide) (Nat.not_lt.1 hlen)))
      · cases h

/-! Digits of every script -/

theorem isDigit_lowLine : isDigit '_' = false := by decide

/-- Every digit has a value. -/
theorem digitValue?_isSome {c : Char} (h : isDigit c = true) : (digitValue? c).isSome = true := by
  have hcovers : ∀ r : Ranges, r.covers c.toNat = true →
      (r.find? fun r => r.1 ≤ c.toNat && c.toNat ≤ r.2).isSome = true := by
    intro r hr
    induction r with
    | nil => cases hr
    | cons p r ih =>
      obtain ⟨lo, hi⟩ := p
      simp only [Ranges.covers] at hr
      split at hr
      · cases hr
      · next hlo =>
        by_cases hhi : c.toNat ≤ hi
        · simp [Nat.not_lt.1 hlo, hhi]
        · simpa [hhi] using ih (by simpa [hhi] using hr)
  simpa [digitValue?] using hcovers digitRanges h

theorem groupedDigits?_of_isDigit {s : List Char} (hne : s ≠ []) (h : ∀ c ∈ s, isDigit c = true) :
    ∃ ds, groupedDigits? s = some ds ∧ ds.length = s.length := by
  fun_induction groupedDigits? s with
  | case1 => exact absurd rfl hne
  | case2 c =>
    obtain ⟨v, hv⟩ := Option.isSome_iff_exists.1 (digitValue?_isSome (h c List.mem_cons_self))
    exact ⟨[v], by rw [hv]; rfl, rfl⟩
  | case3 c rest _ =>
    have hlow := h '_' (by simp)
    rw [isDigit_lowLine] at hlow
    cases hlow
  | case4 c rest hrest _ ih =>
    obtain ⟨v, hv⟩ := Option.isSome_iff_exists.1 (digitValue?_isSome (h c List.mem_cons_self))
    have hr : rest ≠ [] := fun he => hrest (by rw [he])
    obtain ⟨ds, hds, hlen⟩ := ih hr fun d hd => h d (List.mem_cons_of_mem _ hd)
    exact ⟨v :: ds, by rw [hv, hds]; rfl, by simp [hlen]⟩

/-- Nothing but the number of its digits keeps a numeral from being read. -/
theorem readNat_of_isDigit {s : List Char} (hne : s ≠ []) (h : ∀ c ∈ s, isDigit c = true) :
    (maxDigits < s.length → readNat s = .error (.tooLong s.length)) ∧
      (s.length ≤ maxDigits → ∃ n, readNat s = .ok n) := by
  have hall : ∀ c ∈ s, (isDigit c || c == '_') = true := fun c hc => by simp [h c hc]
  have htake : s.takeWhile (fun c => isDigit c || c == '_') = s := List.takeWhile_eq_self_iff.2 hall
  have hdrop : s.dropWhile (fun c => isDigit c || c == '_') = [] :=
    List.dropWhile_eq_nil_iff.2 hall
  obtain ⟨ds, hds, hlen⟩ := groupedDigits?_of_isDigit hne h
  constructor
  · intro hlong
    simp only [readNat, htake, hds, hlen, if_pos hlong]
  · intro hshort
    refine ⟨ofDigits ds, ?_⟩
    simp only [readNat, htake, hdrop, hds, hlen, if_neg (Nat.not_lt.2 hshort), List.all_nil, if_true]

end SchemaDesign.Text
