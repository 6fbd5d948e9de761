import SchemaDesign.Text.Numeral

/-! Double-precision numbers as a JSON text holds them: the double nearest to a decimal, the integer a
double truncates to, and the shortest decimal that reads back as it. -/
namespace SchemaDesign

/-- A finite double is `significand * 2 ^ exponent` with a significand below `2 ^ 53` that is at least
`2 ^ 52` unless the exponent is `-1074`, so that each value has one form. -/
inductive Binary64 where
  | finite (negative : Bool) (significand : Nat) (exponent : Int)
  | infinite (negative : Bool)
  | undefined
deriving DecidableEq

namespace Binary64

/-- A quotient to the nearest integer, a half to the even neighbour. -/
def roundDiv (num den : Nat) : Nat :=
  let q := num / den
  let twice := 2 * (num % den)
  if twice < den then q else if den < twice then q + 1 else q + q % 2

/-- `num / den` divided by `base ^ e`, as a fraction. -/
def scaled (base num den : Nat) (e : Int) : Nat × Nat :=
  if 0 ≤ e then (num, den * Nat.pow base e.toNat) else (num * Nat.pow base (-e).toNat, den)

/-- The first number too large for a significand. -/
def significandBound : Nat := Nat.pow 2 53

/-- The double nearest to `num / den`, ties to the even significand. -/
def nearest (negative : Bool) (num den : Nat) : Binary64 :=
  if num = 0 then finite negative 0 (-1074)
  else
    let guess : Int := (num.log2 : Int) - (den.log2 : Int) - 52
    let low := scaled 2 num den guess
    let e := max (-1074) (if 2 * (low.1 / low.2) < significandBound then guess - 1 else guess)
    let part := scaled 2 num den e
    let m := roundDiv part.1 part.2
    let r : Nat × Int := if m = significandBound then (m / 2, e + 1) else (m, e)
    if 971 < r.2 then infinite negative else finite negative r.1 r.2

/-- The double nearest to `digits * 10 ^ power`. Beyond the powers looked at first the result is already
decided by the count of digits, so that no huge power is computed. -/
def ofDecimal (negative : Bool) (digits : Nat) (power : Int) : Binary64 :=
  if digits = 0 then finite negative 0 (-1074)
  else
    let magnitude := ((Text.decimal digits).length : Int) + power
    if 310 < magnitude then infinite negative
    else if magnitude < -330 then finite negative 0 (-1074)
    else
      let f := scaled 10 digits 1 (-power)
      nearest negative f.1 f.2

def isZero : Binary64 → Bool
  | finite _ m _ => m == 0
  | _ => false

def isFinite : Binary64 → Bool
  | finite _ _ _ => true
  | _ => false

/-- The value as a fraction, sign apart. -/
def fraction (significand : Nat) (exponent : Int) : Nat × Nat :=
  scaled 2 significand 1 (-exponent)

/-- The integer part of a finite double. -/
def truncate? : Binary64 → Option Int
  | finite negative m e =>
      let f := fraction m e
      let n : Int := (f.1 / f.2 : Nat)
      some (if negative then -n else n)
  | _ => none

/-- The integer that a double without a fractional part is. -/
def integer? : Binary64 → Option Int
  | finite negative m e =>
      let f := fraction m e
      if f.1 % f.2 = 0 then truncate? (finite negative m e) else none
  | _ => none

/-- Equality of values: the two zeros are equal, and an undefined number equals nothing. -/
def same : Binary64 → Binary64 → Bool
  | finite s m e, finite t n f => (m == 0 && n == 0) || (s == t && m == n && e == f)
  | infinite s, infinite t => s == t
  | _, _ => false

/-- The two neighbours of `num / den` among the multiples of `10 ^ power`, nearer one first; where both
are equally near, the even one. -/
def neighbours (num den : Nat) (power : Int) : List Nat :=
  let part := scaled 10 num den power
  let q := part.1 / part.2
  if roundDiv part.1 part.2 = q then [q, q + 1] else [q + 1, q]

/-- The first decimal with at least `17 - fuel` digits that reads back as the double. -/
def shortestFrom (x : Binary64) (num den : Nat) (top : Int) : Nat → Nat × Int
  | 0 => ((neighbours num den (top - 17)).headD 0, top - 17)
  | fuel + 1 =>
      let power := top - (17 - fuel : Nat)
      match (neighbours num den power).find? fun d => decide (ofDecimal false d power = x) with
      | some d => (d, power)
      | none => shortestFrom x num den top fuel

/-- The exponent of ten just above a positive fraction. -/
def decimalTop (num den : Nat) : Int :=
  let guess : Int := ((Text.decimal num).length : Int) - ((Text.decimal den).length : Int)
  let part := scaled 10 num den guess
  if part.2 ≤ part.1 then guess + 1 else guess

/-- The fewest digits that read back as the double, and the power of ten they are multiplied by. -/
def shortest (significand : Nat) (exponent : Int) : Nat × Int :=
  let f := fraction significand exponent
  shortestFrom (finite false significand exponent) f.1 f.2 (decimalTop f.1 f.2) 17

/-- Drops trailing zeros of a digit string, keeping at least one digit. -/
def trimZeros (ds : List Char) : List Char :=
  match (ds.reverse.dropWhile (· == '0')).reverse with
  | [] => ['0']
  | kept => kept

/-- An exponent of ten: its sign and at least two digits. -/
def exponentText (e : Int) : List Char :=
  let size := Text.decimal e.natAbs
  'e' :: (if e < 0 then '-' else '+') :: (if size.length < 2 then '0' :: size else size)

/-- Positional from `10 ^ -4` up to `10 ^ 16`, with at least one decimal place; otherwise one digit
before the point and an exponent of at least two digits. -/
def layout (digits : List Char) (point : Int) : List Char :=
  let count : Int := digits.length
  if -4 < point ∧ point ≤ 16 then
    if point ≤ 0 then '0' :: '.' :: List.replicate (-point).toNat '0' ++ digits
    else if count ≤ point then digits ++ List.replicate (point - count).toNat '0' ++ ['.', '0']
    else digits.take point.toNat ++ '.' :: digits.drop point.toNat
  else
    let mantissa := match digits with
      | [d] => [d]
      | d :: rest => d :: '.' :: rest
      | [] => []
    mantissa ++ exponentText (point - 1)

/-- The shortest text that reads back as the double. -/
def write : Binary64 → String
  | undefined => "nan"
  | infinite negative => if negative then "-inf" else "inf"
  | finite negative m e =>
      let body :=
        if m = 0 then ['0', '.', '0']
        else
          let s := shortest m e
          let ds := Text.decimal s.1
          layout (trimZeros ds) ((ds.length : Int) + s.2)
      String.ofList (if negative then '-' :: body else body)

end Binary64

end SchemaDesign
