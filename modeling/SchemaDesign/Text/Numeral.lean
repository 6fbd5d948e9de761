import SchemaDesign.Text.Blank
import SchemaDesign.Text.Digit

/-! Decimal integers as text: how they are written, and which texts are read as one. -/
namespace SchemaDesign.Text

/-- The decimal digits of a number, most significant first. -/
def decimal (n : Nat) : List Char :=
  if n < 10 then [Nat.digitChar n] else decimal (n / 10) ++ [Nat.digitChar (n % 10)]
termination_by n
decreasing_by omega

def writeInt : Int → String
  | .ofNat n => String.ofList (decimal n)
  | .negSucc n => String.ofList ('-' :: decimal (n + 1))

/-- Why a text is not read as an integer. -/
inductive NumeralFault where
  | malformed
  | tooLong (digits : Nat)
deriving DecidableEq

/-- The greatest number of digits that is read, leading zeros counted. -/
def maxDigits : Nat := 4300

def tooLongMessage (digits : Nat) : String :=
  "Exceeds the limit (" ++ writeInt maxDigits ++ " digits) for integer string conversion: value has "
    ++ writeInt digits ++ " digits; use sys.set_int_max_str_digits() to increase the limit"

/-- The part of a quoted text that a message has room for. -/
def excerpt (quotedText : String) : String := String.ofList (quotedText.toList.take 200)

/-- What a message says of a text that is quoted in it. -/
def NumeralFault.message (quotedText : String) : NumeralFault → String
  | malformed => "invalid literal for int() with base 10: " ++ excerpt quotedText
  | tooLong digits => tooLongMessage digits

/-- White space around a numeral. Of the ASCII characters only the tab, the line feed, the vertical
tab, the form feed, the carriage return and the space count. -/
def isNumeralBlank (c : Char) : Bool :=
  c == ' ' || (9 ≤ c.toNat && c.toNat ≤ 13) || (128 ≤ c.toNat && isBlank c)

/-- The values of the digits of a run that single low lines may divide. -/
def groupedDigits? : List Char → Option (List Nat)
  | [] => none
  | [c] => (digitValue? c).map ([·])
  | c :: '_' :: rest => do return (← digitValue? c) :: (← groupedDigits? rest)
  | c :: rest => do return (← digitValue? c) :: (← groupedDigits? rest)

def ofDigits (ds : List Nat) : Nat := ds.foldl (fun n d => 10 * n + d) 0

/-- An unsigned numeral and the white space after it. A run of digits that is too long is refused
before the text that follows it is looked at. -/
def readNat (s : List Char) : Except NumeralFault Nat :=
  match groupedDigits? (s.takeWhile fun c => isDigit c || c == '_') with
  | none => .error .malformed
  | some ds =>
      if maxDigits < ds.length then .error (.tooLong ds.length)
      else if (s.dropWhile fun c => isDigit c || c == '_').all isNumeralBlank then .ok (ofDigits ds)
      else .error .malformed

/-- An optional sign and a numeral, with white space around. -/
def readInt (s : List Char) : Except NumeralFault Int :=
  match s.dropWhile isNumeralBlank with
  | '-' :: rest => (readNat rest).map fun n => -(n : Int)
  | '+' :: rest => (readNat rest).map Int.ofNat
  | rest => (readNat rest).map Int.ofNat

end SchemaDesign.Text
