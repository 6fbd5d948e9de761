import Mathlib.Algebra.Order.Field.Power
import Mathlib.Data.Rat.Floor
import Mathlib.Tactic.Linarith
import Mathlib.Tactic.NormNum
import Mathlib.Tactic.Positivity
import Mathlib.Tactic.Ring
import SchemaDesign.Json.Binary64
import SchemaDesign.Proofs.Text.Numeral

/-! Doubles as the numbers they are: what is left of one without its fraction, and from which decimal on
the nearest double is infinite. -/
namespace SchemaDesign.Binary64

/-- The number that a finite double is. -/
def value? : Binary64 → Option ℚ
  | finite negative m e => some (if negative then -(m * 2 ^ e) else m * 2 ^ e)
  | _ => none

/-- A number without its fraction. -/
def towardsZero (q : ℚ) : Int := if 0 ≤ q then ⌊q⌋ else ⌈q⌉

/-! Fractions -/

theorem scaled_pos {base num den : Nat} (hb : 0 < base) (hd : 0 < den) (e : Int) :
    0 < (scaled base num den e).2 := by
  unfold scaled
  split
  · exact Nat.mul_pos hd (Nat.pow_pos hb)
  · exact hd

theorem scaled_num_pos {base num : Nat} (hb : 0 < base) (hn : 0 < num) (den : Nat) (e : Int) :
    0 < (scaled base num den e).1 := by
  unfold scaled
  split
  · exact hn
  · exact Nat.mul_pos hn (Nat.pow_pos hb)

theorem scaled_div {base : Nat} (hb : 0 < base) (num den : Nat) (e : Int) :
    ((scaled base num den e).1 : ℚ) / (scaled base num den e).2 = num / den / (base : ℚ) ^ e := by
  have hbase : (base : ℚ) ≠ 0 := by positivity
  unfold scaled
  split
  · next he =>
    obtain ⟨n, rfl⟩ := Int.eq_ofNat_of_zero_le he
    show (num : ℚ) / (den * base ^ n : Nat) = num / den / (base : ℚ) ^ (n : Int)
    rw [zpow_natCast, Nat.cast_mul, Nat.cast_pow, div_div]
  · next he =>
    obtain ⟨n, hn⟩ := Int.eq_ofNat_of_zero_le (show 0 ≤ -e by omega)
    obtain rfl : e = -(n : Int) := by omega
    show ((num * base ^ (-(-(n : Int))).toNat : Nat) : ℚ) / den = num / den / (base : ℚ) ^ (-(n : Int))
    rw [neg_neg, Int.toNat_natCast, zpow_neg, zpow_natCast, Nat.cast_mul, Nat.cast_pow, div_inv_eq_mul]
    ring

theorem scaled_div_lt {k num den : Nat} (hd : 0 < den) (e : Int) :
    (scaled 2 num den e).1 / (scaled 2 num den e).2 < k ↔ (num : ℚ) / den < k * 2 ^ e := by
  have hpos : 0 < (scaled 2 num den e).2 := scaled_pos (by decide) hd e
  have hpart := scaled_div Nat.two_pos num den e
  rw [Nat.cast_two] at hpart
  rw [Nat.div_lt_iff_lt_mul hpos, ← div_lt_iff₀ (by positivity), ← hpart, div_lt_iff₀ (by positivity)]
  exact_mod_cast Iff.rfl

theorem fraction_div (m : Nat) (e : Int) :
    ((fraction m e).1 : ℚ) / (fraction m e).2 = m * (2 : ℚ) ^ e := by
  rw [fraction, scaled_div (by decide), Nat.cast_one, div_one, zpow_neg, div_inv_eq_mul, Nat.cast_ofNat]

theorem towardsZero_div (num den : Nat) : towardsZero ((num : ℚ) / den) = (num / den : Nat) := by
  rw [towardsZero, if_pos (by positivity), Rat.floor_natCast_div_natCast, Int.natCast_ediv]

theorem towardsZero_neg (q : ℚ) : towardsZero (-q) = -towardsZero q := by
  unfold towardsZero
  rcases lt_trichotomy q 0 with hq | rfl | hq
  · rw [if_pos (by linarith), if_neg (by linarith), Int.floor_neg]
  · simp
  · rw [if_neg (by linarith), if_pos hq.le, Int.ceil_neg]

theorem truncate?_eq (x : Binary64) : x.truncate? = x.value?.map towardsZero := by
  cases x with
  | finite negative m e =>
    have hcut : towardsZero (m * (2 : ℚ) ^ e) = ((fraction m e).1 / (fraction m e).2 : Nat) := by
      rw [← fraction_div, towardsZero_div]
    cases negative with
    | false => exact congrArg some hcut.symm
    | true =>
      show some (-(((fraction m e).1 / (fraction m e).2 : Nat) : Int)) = some (towardsZero (-(m * 2 ^ e)))
      rw [towardsZero_neg, hcut]
  | infinite negative => rfl
  | undefined => rfl

/-! Rounding -/

theorem roundDiv_bounds (num den : Nat) :
    num / den ≤ roundDiv num den ∧ roundDiv num den ≤ num / den + 1 := by
  simp only [roundDiv]
  split
  · omega
  · split
    · omega
    · omega

/-- An even number is reached from half a unit below it on. -/
theorem le_roundDiv {k num den : Nat} (hd : 0 < den) (heven : k % 2 = 0) (hk : 0 < k) :
    k ≤ roundDiv num den ↔ (2 * k - 1) * den ≤ 2 * num := by
  obtain ⟨hlow, hhigh⟩ := roundDiv_bounds num den
  have hnum : den * (num / den) + num % den = num := Nat.div_add_mod num den
  have hmod : num % den < den := Nat.mod_lt num hd
  rcases Nat.lt_trichotomy (num / den + 1) k with hlt | heq | hgt
  · have hfar : den * (2 * (num / den) + 3) ≤ (2 * k - 1) * den := by
      rw [Nat.mul_comm]
      exact Nat.mul_le_mul_right den (by omega)
    rw [Nat.mul_add, Nat.mul_left_comm] at hfar
    omega
  · have hhalf : (2 * k - 1) * den = 2 * (den * (num / den)) + den := by
      have hodd : 2 * k - 1 = 2 * (num / den) + 1 := by omega
      rw [hodd]
      ring
    rw [hhalf]
    simp only [roundDiv]
    split
    · omega
    · split
      · omega
      · omega
  · have hnear : (2 * k - 1) * den ≤ den * (2 * (num / den)) := by
      rw [Nat.mul_comm]
      exact Nat.mul_le_mul_left den (by omega)
    rw [Nat.mul_left_comm] at hnear
    omega

theorem significandBound_eq : significandBound = 2 ^ 53 := rfl

/-- The exponent at which a fraction has 53 digits before the point. -/
def unitExponent (num den : Nat) : Int :=
  let guess : Int := (num.log2 : Int) - (den.log2 : Int) - 52
  let low := scaled 2 num den guess
  if 2 * (low.1 / low.2) < significandBound then guess - 1 else guess

theorem zpow_log2 {n : Nat} (hn : 0 < n) :
    (2 : ℚ) ^ (n.log2 : Int) ≤ n ∧ (n : ℚ) < 2 ^ ((n.log2 : Int) + 1) := by
  constructor
  · rw [zpow_natCast]
    exact_mod_cast Nat.log2_self_le (Nat.ne_of_gt hn)
  · rw [← Nat.cast_succ, zpow_natCast]
    exact_mod_cast Nat.lt_log2_self

theorem div_log2 {num den : Nat} (hn : 0 < num) (hd : 0 < den) :
    (2 : ℚ) ^ ((num.log2 : Int) - den.log2 - 1) ≤ num / den ∧
      (num : ℚ) / den < 2 ^ ((num.log2 : Int) - den.log2 + 1) := by
  obtain ⟨hnlow, hnhigh⟩ := zpow_log2 hn
  obtain ⟨hdlow, hdhigh⟩ := zpow_log2 hd
  have htwo : (2 : ℚ) ≠ 0 := by norm_num
  constructor
  · rw [show (num.log2 : Int) - den.log2 - 1 = num.log2 - (den.log2 + 1) by ring, zpow_sub₀ htwo]
    exact div_le_div₀ (by positivity) hnlow (by positivity) hdhigh.le
  · rw [show (num.log2 : Int) - den.log2 + 1 = num.log2 + 1 - den.log2 by ring, zpow_sub₀ htwo]
    exact div_lt_div₀ hnhigh hdlow (by positivity) (by positivity)

theorem unitExponent_spec {num den : Nat} (hn : 0 < num) (hd : 0 < den) :
    2 ^ 52 * (2 : ℚ) ^ unitExponent num den ≤ num / den ∧
      (num : ℚ) / den < 2 ^ 53 * 2 ^ unitExponent num den := by
  obtain ⟨hlow, hhigh⟩ := div_log2 hn hd
  have htwo : (2 : ℚ) ≠ 0 := by norm_num
  obtain ⟨guess, hguess⟩ : ∃ guess : Int, guess = (num.log2 : Int) - den.log2 - 52 := ⟨_, rfl⟩
  have hshift : ∀ n : Nat, (2 : ℚ) ^ (guess + n) = 2 ^ n * 2 ^ guess := by
    intro n
    rw [zpow_add₀ htwo, zpow_natCast, mul_comm]
  rw [show (num.log2 : Int) - den.log2 - 1 = guess + (51 : Nat) by omega, hshift] at hlow
  rw [show (num.log2 : Int) - den.log2 + 1 = guess + (53 : Nat) by omega, hshift] at hhigh
  have hdigits := @scaled_div_lt (2 ^ 52) num den hd guess
  unfold unitExponent
  simp only [← hguess, significandBound_eq]
  -- the guess leaves 52 or 53 digits, and is one too high where they are 52
  split
  · next h =>
    have hfew : (num : ℚ) / den < 2 ^ 52 * 2 ^ guess := by
      have := hdigits.1 (by omega)
      exact_mod_cast this
    rw [zpow_sub_one₀ htwo]
    constructor <;> linarith
  · next h =>
    have hmany : 2 ^ 52 * 2 ^ guess ≤ (num : ℚ) / den := by
      have := mt hdigits.2 (by omega)
      exact_mod_cast not_lt.1 this
    exact ⟨hmany, hhigh⟩

/-! Numbers that are too large -/

/-- What the greatest doubles lie apart. -/
def greatestUnit : ℚ := 2 ^ (971 : Int)

/-- The least number whose nearest double is infinite, half a unit above the greatest finite double. -/
def overflow : ℚ := (2 ^ 53 - 1 / 2) * greatestUnit

theorem greatestUnit_pos : 0 < greatestUnit := zpow_pos two_pos 971

/-- Significand and exponent of the nearest double, were there no greatest one. -/
def rounded (num den : Nat) : Nat × Int :=
  let e := max (-1074) (unitExponent num den)
  let part := scaled 2 num den e
  let m := roundDiv part.1 part.2
  if m = significandBound then (m / 2, e + 1) else (m, e)

theorem nearest_eq (negative : Bool) {num den : Nat} (hn : 0 < num) :
    nearest negative num den = if 971 < (rounded num den).2 then infinite negative
      else finite negative (rounded num den).1 (rounded num den).2 := by
  unfold nearest
  rw [if_neg (Nat.ne_of_gt hn)]
  rfl

theorem rounded_exponent (num den : Nat) (e : Int) (he : e = max (-1074) (unitExponent num den)) :
    (rounded num den).2 =
      if roundDiv (scaled 2 num den e).1 (scaled 2 num den e).2 = significandBound then e + 1 else e := by
  subst he
  unfold rounded
  simp only
  split
  · rfl
  · rfl

/-- At the greatest exponent a number is rounded up to the next one from half a unit below on. -/
theorem roundDiv_eq_bound {num den : Nat} (hd : 0 < den)
    (hlt : (num : ℚ) / den < 2 ^ 53 * greatestUnit) :
    roundDiv (scaled 2 num den 971).1 (scaled 2 num den 971).2 = significandBound ↔
      overflow ≤ num / den := by
  have hpos : 0 < (scaled 2 num den 971).2 := scaled_pos Nat.two_pos hd 971
  have hpart := scaled_div Nat.two_pos num den 971
  rw [Nat.cast_two, ← greatestUnit, eq_div_iff greatestUnit_pos.ne'] at hpart
  have hfloor : (scaled 2 num den 971).1 / (scaled 2 num den 971).2 < 2 ^ 53 :=
    (scaled_div_lt hd 971).2 (by rw [← greatestUnit]; exact_mod_cast hlt)
  generalize scaled 2 num den 971 = part at hpos hpart hfloor ⊢
  have hle := (roundDiv_bounds part.1 part.2).2
  have hreach : roundDiv part.1 part.2 = significandBound ↔ 2 ^ 53 ≤ roundDiv part.1 part.2 := by
    rw [significandBound_eq]
    omega
  rw [hreach, le_roundDiv hpos (by decide) (by decide), ← hpart, overflow,
    mul_le_mul_iff_left₀ greatestUnit_pos, le_div_iff₀ (Nat.cast_pos.2 hpos)]
  have hcast : (2 * 2 ^ 53 - 1) * part.2 ≤ 2 * part.1 ↔
      ((2 * 2 ^ 53 - 1 : Nat) : ℚ) * part.2 ≤ 2 * part.1 := by exact_mod_cast Iff.rfl
  rw [hcast]
  constructor
  · intro h
    norm_num at h ⊢
    linarith
  · intro h
    norm_num at h ⊢
    linarith

theorem lt_rounded {num den : Nat} (hn : 0 < num) (hd : 0 < den) :
    971 < (rounded num den).2 ↔ overflow ≤ num / den := by
  obtain ⟨hlow, hhigh⟩ := unitExponent_spec hn hd
  have hunit := greatestUnit_pos
  rw [rounded_exponent num den _ rfl]
  -- only at the greatest exponent does it matter how the number is rounded
  rcases lt_trichotomy (unitExponent num den) 971 with hlt | heq | hgt
  · have hpow : (2 : ℚ) ^ (unitExponent num den + 1) ≤ greatestUnit :=
      zpow_le_zpow_right₀ one_le_two (by omega)
    rw [zpow_add_one₀ two_ne_zero] at hpow
    have hsmall : (num : ℚ) / den < overflow := by
      unfold overflow
      linarith
    constructor
    · intro h
      split at h <;> omega
    · intro h
      exact absurd h (not_le.2 hsmall)
  · rw [heq, ← greatestUnit] at hhigh
    rw [heq, show max (-1074) (971 : Int) = 971 from rfl, ← roundDiv_eq_bound hd hhigh]
    split
    · next h => simp [h]
    · next h => simp [h]
  · have hpow : (2 : ℚ) ^ (971 + 1 : Int) ≤ 2 ^ unitExponent num den :=
      zpow_le_zpow_right₀ one_le_two (by omega)
    rw [zpow_add_one₀ two_ne_zero, ← greatestUnit] at hpow
    have hlarge : overflow ≤ (num : ℚ) / den := by
      unfold overflow
      linarith
    constructor
    · exact fun _ => hlarge
    · intro _
      split <;> omega

/-- Numbers other than zero have an infinite nearest double from `overflow` on. -/
theorem nearest_eq_infinite {negative s : Bool} {num den : Nat} (hn : 0 < num) (hd : 0 < den) :
    nearest negative num den = infinite s ↔ s = negative ∧ overflow ≤ (num : ℚ) / den := by
  rw [nearest_eq negative hn, ← lt_rounded hn hd]
  split
  · next h => simp [h, eq_comm]
  · next h => simp [h]

/-- A decimal lies between the powers of ten that the count of its digits gives. -/
theorem decimal_bounds {digits : Nat} (hd : 0 < digits) (power : Int) :
    (10 : ℚ) ^ ((Text.decimal digits).length + power - 1) ≤ digits * 10 ^ power ∧
      (digits : ℚ) * 10 ^ power < 10 ^ ((Text.decimal digits).length + power) := by
  have hten : (10 : ℚ) ≠ 0 := by norm_num
  have hpow : (0 : ℚ) < 10 ^ power := by positivity
  have hlen : 0 < (Text.decimal digits).length := List.length_pos_of_ne_nil (Text.decimal_ne_nil digits)
  constructor
  · have hsplit : ((Text.decimal digits).length : Int) + power - 1 =
        ((Text.decimal digits).length - 1 : Nat) + power := by omega
    rw [hsplit, zpow_add₀ hten, zpow_natCast, mul_le_mul_iff_left₀ hpow]
    exact_mod_cast Text.pow_length_decimal_le hd
  · rw [zpow_add₀ hten, zpow_natCast, mul_lt_mul_iff_left₀ hpow]
    exact_mod_cast Text.lt_pow_length_decimal digits

theorem overflow_bounds : (10 : ℚ) ^ (-330 : Int) ≤ overflow ∧ overflow ≤ 10 ^ (310 : Int) := by
  have hunit : greatestUnit = 2 ^ 41 * (2 ^ 93) ^ 10 := by
    rw [← pow_mul, ← pow_add]
    exact zpow_natCast 2 971
  constructor
  · have hone : 1 ≤ greatestUnit := one_le_zpow₀ one_le_two (by decide)
    calc (10 : ℚ) ^ (-330 : Int) ≤ 1 := zpow_le_one_of_nonpos₀ (by norm_num) (by decide)
      _ ≤ overflow := by unfold overflow; linarith
  · have hten : (10 : ℚ) ^ 16 * (10 ^ 13 * (10 ^ 28) ^ 10) = 10 ^ (309 : Int) := by
      rw [← pow_mul, ← pow_add, ← pow_add]
      exact (zpow_natCast 10 309).symm
    calc overflow ≤ 2 ^ 53 * (2 ^ 41 * (2 ^ 93) ^ 10) := by
          rw [← hunit, overflow]
          exact mul_le_mul_of_nonneg_right (by norm_num) greatestUnit_pos.le
      _ ≤ 10 ^ 16 * (10 ^ 13 * (10 ^ 28) ^ 10) := by
          gcongr <;> norm_num
      _ = 10 ^ (309 : Int) := hten
      _ ≤ 10 ^ (310 : Int) := zpow_le_zpow_right₀ (by norm_num) (by decide)

/-- The double nearest to a decimal is infinite exactly from `overflow` on. -/
theorem ofDecimal_eq_infinite {negative s : Bool} {digits : Nat} {power : Int} :
    ofDecimal negative digits power = infinite s ↔
      s = negative ∧ overflow ≤ (digits : ℚ) * 10 ^ power := by
  obtain ⟨hsmall, hlarge⟩ := overflow_bounds
  unfold ofDecimal
  split
  · next h =>
    have hpos : ¬ overflow ≤ (digits : ℚ) * 10 ^ power := by
      rw [h, Nat.cast_zero, zero_mul, not_le]
      exact lt_of_lt_of_le (by positivity) hsmall
    simp [hpos]
  · next h =>
    obtain ⟨hlow, hhigh⟩ := decimal_bounds (Nat.pos_of_ne_zero h) power
    simp only
    split
    · next hmany =>
      have hover : overflow ≤ (digits : ℚ) * 10 ^ power :=
        hlarge.trans ((zpow_le_zpow_right₀ (by norm_num) (by omega)).trans hlow)
      simp [hover, eq_comm]
    · split
      · next hfew =>
        have hunder : ¬ overflow ≤ (digits : ℚ) * 10 ^ power := by
          rw [not_le]
          exact (hhigh.trans_le (zpow_le_zpow_right₀ (by norm_num) (by omega))).trans_le hsmall
        simp [hunder]
      · have hvalue := scaled_div (show 0 < 10 by decide) digits 1 (-power)
        rw [Nat.cast_one, div_one, zpow_neg, div_inv_eq_mul, Nat.cast_ofNat] at hvalue
        have hnum := scaled_num_pos (show 0 < 10 by decide) (Nat.pos_of_ne_zero h) 1 (-power)
        rw [nearest_eq_infinite hnum (scaled_pos (by decide) Nat.one_pos _), hvalue]

end SchemaDesign.Binary64
