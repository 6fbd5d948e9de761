import SchemaDesign.Assoc
import SchemaDesign.Json.Encoding
import SchemaDesign.Json.Value

/-! Reading JSON text. The three numbers beyond the standard (`NaN` and the two infinities) are read,
text after the value is refused, and of a repeated key the last value counts. -/
namespace SchemaDesign.Json

inductive ReadFault where
  | malformed
  | numeralTooLong (digits : Nat)
  | tooDeep
deriving DecidableEq

/-- How much a text may hold: digits in an integer, and lists and objects within each other. -/
structure Limits where
  digits : Option Nat
  depth : Option Nat
deriving DecidableEq

def Limits.unlimited : Limits := ⟨none, none⟩

def isGap (c : Char) : Bool := c == ' ' || c == '\t' || c == '\n' || c == '\r'

def skipGap (s : List Char) : List Char := s.dropWhile isGap

def isAsciiDigit (c : Char) : Bool := 48 ≤ c.toNat && c.toNat ≤ 57

def asciiValue (ds : List Char) : Nat := Text.ofDigits (ds.map fun c => c.toNat - 48)

def hexValue? (c : Char) : Option Nat :=
  let n := c.toNat
  if 48 ≤ n && n ≤ 57 then some (n - 48)
  else if 97 ≤ n && n ≤ 102 then some (n - 87)
  else if 65 ≤ n && n ≤ 70 then some (n - 55)
  else none

def unit? (a b c d : Char) : Option Nat := do
  return (((← hexValue? a) * 16 + (← hexValue? b)) * 16 + (← hexValue? c)) * 16 + (← hexValue? d)

/-- The characters of a string up to its closing quote, and the text behind it. -/
def readText (read : List Char) : List Char → Option (List Char × List Char)
  | [] => none
  | '\x22' :: rest => some (read.reverse, rest)
  | '\\' :: 'u' :: a :: b :: c :: d :: '\\' :: 'u' :: e :: f :: g :: h :: rest =>
      match unit? a b c d, unit? e f g h with
      | some high, some low =>
          if 0xD800 ≤ high && high < 0xDC00 && 0xDC00 ≤ low && low < 0xE000 then
            readText (joinSurrogates high low :: read) rest
          else readText (unitChar high :: read) ('\\' :: 'u' :: e :: f :: g :: h :: rest)
      | some n, none => readText (unitChar n :: read) ('\\' :: 'u' :: e :: f :: g :: h :: rest)
      | none, _ => none
  | '\\' :: 'u' :: a :: b :: c :: d :: rest =>
      match unit? a b c d with
      | some n => readText (unitChar n :: read) rest
      | none => none
  | '\\' :: c :: rest =>
      if c == '\x22' || c == '\\' || c == '/' then readText (c :: read) rest
      else if c == 'b' then readText ('\x08' :: read) rest
      else if c == 'f' then readText ('\x0c' :: read) rest
      else if c == 'n' then readText ('\n' :: read) rest
      else if c == 'r' then readText ('\r' :: read) rest
      else if c == 't' then readText ('\t' :: read) rest
      else none
  | c :: rest => if c.toNat < 32 then none else readText (c :: read) rest
termination_by s => s.length

/-- The digits of a fraction, if a point and at least one digit stand next. -/
def readFraction (s : List Char) : Option (List Char) × List Char :=
  match s with
  | '.' :: rest =>
      match rest.takeWhile isAsciiDigit with
      | [] => (none, s)
      | ds => (some ds, rest.dropWhile isAsciiDigit)
  | _ => (none, s)

/-- The sign and the digits of an exponent, if they stand next. -/
def readExponent (s : List Char) : Option Int × List Char :=
  match s with
  | e :: rest =>
      if e == 'e' || e == 'E' then
        let signed : Bool × List Char := match rest with
          | '-' :: r => (true, r)
          | '+' :: r => (false, r)
          | r => (false, r)
        match signed.2.takeWhile isAsciiDigit with
        | [] => (none, s)
        | ds =>
            let n : Int := asciiValue ds
            (some (if signed.1 then -n else n), signed.2.dropWhile isAsciiDigit)
      else (none, s)
  | [] => (none, s)

/-- A number without its sign. With a fraction or an exponent it is a double, otherwise an integer. -/
def readNumber (limits : Limits) (negative : Bool) (s : List Char) :
    Except ReadFault (Json × List Char) :=
  let whole := match s with
    | '0' :: _ => ['0']
    | _ => s.takeWhile isAsciiDigit
  if whole.isEmpty then .error .malformed
  else
    let fraction := readFraction (s.drop whole.length)
    let exponent := readExponent fraction.2
    match fraction.1, exponent.1 with
    | none, none =>
        if limits.digits.any (· < whole.length) then .error (.numeralTooLong whole.length)
        else
          let n : Int := asciiValue whole
          .ok (int (if negative then -n else n), exponent.2)
    | ds, e =>
        let places := ds.getD []
        .ok (real (Binary64.ofDecimal negative (asciiValue (whole ++ places))
          (e.getD 0 - places.length)), exponent.2)

def startsWith : List Char → List Char → Option (List Char)
  | [], s => some s
  | c :: cs, d :: ds => if c == d then startsWith cs ds else none
  | _ :: _, [] => none

/-- The words that are values. -/
def literals : List (List Char × Json) :=
  [("null".toList, null), ("true".toList, bool true), ("false".toList, bool false),
   ("NaN".toList, real .undefined), ("Infinity".toList, real (.infinite false)),
   ("-Infinity".toList, real (.infinite true))]

def readLiteral? (s : List Char) : Option (Json × List Char) :=
  literals.findSome? fun l => (startsWith l.1 s).map fun rest => (l.2, rest)

mutual

/-- A value at the head of the text, inside `depth` lists and objects. `fuel` bounds the steps: two for
each character suffice, since a bracket costs one for itself and one for what stands in it. -/
def readValue (limits : Limits) : Nat → Nat → List Char → Except ReadFault (Json × List Char)
  | 0, _, _ => .error .malformed
  | fuel + 1, depth, s =>
      match s with
      | '\x22' :: rest =>
          match readText [] rest with
          | some (text, after) => .ok (str (String.ofList text), after)
          | none => .error .malformed
      | '\x5b' :: rest =>
          if limits.depth.any (· ≤ depth) then .error .tooDeep
          else
            match skipGap rest with
            | '\x5d' :: after => .ok (arr [], after)
            | next => readItems limits fuel (depth + 1) [] next
      | '\x7b' :: rest =>
          if limits.depth.any (· ≤ depth) then .error .tooDeep
          else
            match skipGap rest with
            | '\x7d' :: after => .ok (obj [], after)
            | next => readFields limits fuel (depth + 1) [] next
      | s =>
          match readLiteral? s with
          | some found => .ok found
          | none =>
              match s with
              | '-' :: rest => readNumber limits true rest
              | _ => readNumber limits false s

def readItems (limits : Limits) :
    Nat → Nat → List Json → List Char → Except ReadFault (Json × List Char)
  | 0, _, _, _ => .error .malformed
  | fuel + 1, depth, read, s =>
      match readValue limits fuel depth s with
      | .error e => .error e
      | .ok (item, rest) =>
          match skipGap rest with
          | ',' :: after => readItems limits fuel depth (item :: read) (skipGap after)
          | '\x5d' :: after => .ok (arr (item :: read).reverse, after)
          | _ => .error .malformed

def readFields (limits : Limits) :
    Nat → Nat → List (String × Json) → List Char → Except ReadFault (Json × List Char)
  | 0, _, _, _ => .error .malformed
  | fuel + 1, depth, read, s =>
      match s with
      | '\x22' :: rest =>
          match readText [] rest with
          | none => .error .malformed
          | some (key, afterKey) =>
              match skipGap afterKey with
              | ':' :: next =>
                  match readValue limits fuel depth (skipGap next) with
                  | .error e => .error e
                  | .ok (value, afterValue) =>
                      match skipGap afterValue with
                      | ',' :: after =>
                          readFields limits fuel depth (Assoc.put (String.ofList key) value read)
                            (skipGap after)
                      | '\x7d' :: after => .ok (obj (Assoc.put (String.ofList key) value read), after)
                      | _ => .error .malformed
              | _ => .error .malformed
      | _ => .error .malformed

end

/-- The value that a whole text is, within limits. -/
def read (limits : Limits) (text : String) : Except ReadFault Json :=
  let s := skipGap text.toList
  match readValue limits (2 * s.length + 1) 0 s with
  | .error e => .error e
  | .ok (value, rest) => if (skipGap rest).isEmpty then .ok value else .error .malformed

end SchemaDesign.Json
