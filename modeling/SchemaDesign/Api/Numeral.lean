import SchemaDesign.Json.Reader
import SchemaDesign.Text.Blank

/-! Integers that a request body gives as text or as a number with a point. A text may have white space
around, a sign, zeros in front, single low lines between its digits and a point with zeros behind. -/
namespace SchemaDesign.Api

inductive NumeralFault where
  | malformed
  | tooLong
deriving DecidableEq

/-- The greatest number of characters of a numeral, its sign counted. -/
def maxNumeral : Nat := 4300

/-- ASCII digits behind an optional minus sign. What is too long is so whatever follows. -/
def plainInteger (s : List Char) : Except NumeralFault Int :=
  let unsigned := match s with
    | '-' :: rest => rest
    | _ => s
  let run := unsigned.takeWhile Json.isAsciiDigit
  if run.headD '0' ≠ '0' ∧ maxNumeral < s.length - unsigned.length + run.length then .error .tooLong
  else if run.isEmpty || run.length < unsigned.length then .error .malformed
  else
    let n : Int := Json.asciiValue run
    .ok (if unsigned.length < s.length then -n else n)

/-- White space around a number; the information separators do not count. -/
def isPad (c : Char) : Bool := Text.isBlank c && !(28 ≤ c.toNat && c.toNat ≤ 31)

def withoutPads (s : List Char) : List Char := ((s.dropWhile isPad).reverse.dropWhile isPad).reverse

/-- A plus sign may stand before anything but a minus sign. -/
def withoutPlus? : List Char → Option (List Char)
  | '+' :: '-' :: _ => none
  | '+' :: rest => some rest
  | s => some s

/-- What begins the part of a numeral behind its leading zeros. -/
def isLeading (c : Char) : Bool := c == '-' || (49 ≤ c.toNat && c.toNat ≤ 57)

/-- What follows zeros and low lines; the last of them stays where a point or nothing follows. -/
def afterZeros? (last : Char) : List Char → Option (List Char)
  | [] => some [last]
  | c :: rest =>
      if c == '0' || c == '_' then afterZeros? c rest
      else if isLeading c then some (c :: rest)
      else if c == '.' then some (last :: c :: rest)
      else none

def withoutZeros? : List Char → Option (List Char)
  | [] => none
  | c :: rest =>
      if c == '0' then afterZeros? c rest
      else if isLeading c then some (c :: rest)
      else none

/-- The text before a point that zeros alone follow. -/
def withoutPlaces (s : List Char) : List Char :=
  let places := (s.dropWhile (· != '.')).drop 1
  if !places.isEmpty && places.all (· == '0') then s.takeWhile (· != '.') else s

/-- Whether low lines stand only between other characters, and singly. -/
def isGrouped : List Char → Bool
  | [] => true
  | ['_'] => false
  | '_' :: '_' :: _ => false
  | _ :: rest => isGrouped rest

def withoutLowLines (s : List Char) : List Char :=
  if s.head? != some '_' && isGrouped s then s.filter (· != '_') else s

/-- A numeral without all that does not count in it. -/
def bareNumeral? (s : List Char) : Option (List Char) := do
  let unsigned ← withoutPlus? (withoutPads s)
  let bare ← withoutZeros? unsigned
  return withoutLowLines (withoutPlaces bare)

def integerOfText (s : List Char) : Except NumeralFault Int :=
  match plainInteger s with
  | .error .malformed =>
      match bareNumeral? s with
      | some bare => plainInteger bare
      | none => .error .malformed
  | r => r

/-- The bound of the integers of 64 bits. -/
def wordBound : Int := Nat.pow 2 63

/-- Whether an integer lies between the bounds, neither of which counts. -/
def isBelowBound (n : Int) : Bool := -wordBound < n && n < wordBound

end SchemaDesign.Api
