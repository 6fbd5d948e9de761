import SchemaDesign.Json.Binary64

/-! Doubles written with a chosen number of digits. The exact value is rounded, a half to the even digit. -/
namespace SchemaDesign.Binary64

/-- The forms with a chosen number of digits: so many places after the point, so many behind the first
digit of a power of ten, or so many in all. -/
inductive Style where
  | fixed | scientific | general
deriving DecidableEq

/-- A multiple of `10 ^ -places`. The point is written where places follow it, or where it is `kept`. -/
def withPoint (kept : Bool) (places n : Nat) : List Char :=
  let short := Text.decimal n
  let ds := List.replicate (places + 1 - short.length) '0' ++ short
  let whole := ds.take (ds.length - places)
  if places = 0 then (if kept then whole ++ ['.'] else whole)
  else whole ++ '.' :: ds.drop (ds.length - places)

def fixedText (kept : Bool) (places significand : Nat) (exponent : Int) : List Char :=
  let f := fraction significand exponent
  withPoint kept places (roundDiv (f.1 * Nat.pow 10 places) f.2)

/-- The first digit of a value with `places` more, as an integer, and the power of ten of the first. -/
def leadingDigits (places significand : Nat) (exponent : Int) : Nat × Int :=
  if significand = 0 then (0, 0)
  else
    let f := fraction significand exponent
    let top := decimalTop f.1 f.2 - 1
    let part := scaled 10 f.1 f.2 (top - places)
    let n := roundDiv part.1 part.2
    if n = Nat.pow 10 (places + 1) then (n / 10, top + 1) else (n, top)

def scientificText (kept : Bool) (places significand : Nat) (exponent : Int) : List Char :=
  let r := leadingDigits places significand exponent
  withPoint kept places r.1 ++ exponentText r.2

/-- Drops zeros after the point, and the point where nothing follows it. -/
def trimPlaces (s : List Char) : List Char :=
  if s.contains '.' then
    match s.reverse.dropWhile (· == '0') with
    | '.' :: rest => rest.reverse
    | kept => kept.reverse
  else s

/-- At least one digit; positional where the first digit stands at most four places after the point and
at most `digits` before it. Zeros at the end go unless they are `kept`. -/
def generalText (kept : Bool) (digits significand : Nat) (exponent : Int) : List Char :=
  let count := max digits 1
  let r := leadingDigits (count - 1) significand exponent
  let finish (s : List Char) : List Char := if kept then s else trimPlaces s
  if -4 ≤ r.2 ∧ r.2 < count then finish (withPoint kept ((count : Int) - 1 - r.2).toNat r.1)
  else finish (withPoint kept (count - 1) r.1) ++ exponentText r.2

def writeDigits (style : Style) (kept : Bool) (digits : Nat) : Binary64 → List Char
  | undefined => ['n', 'a', 'n']
  | infinite negative => if negative then ['-', 'i', 'n', 'f'] else ['i', 'n', 'f']
  | finite negative m e =>
      let body := match style with
        | .fixed => fixedText kept digits m e
        | .scientific => scientificText kept digits m e
        | .general => generalText kept digits m e
      if negative then '-' :: body else body

end SchemaDesign.Binary64
