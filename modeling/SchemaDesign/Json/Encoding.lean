/-! The encodings of JSON text. Which one some bytes are in is told by the zero bytes at their start, since
JSON text begins with an ASCII character. -/
namespace SchemaDesign.Json

inductive Encoding where
  | utf8
  | utf16 (bigEndian : Bool)
  | utf32 (bigEndian : Bool)
deriving DecidableEq

/-- The encoding of bytes without a byte order mark of 16 or 32 bits. Three bytes are no JSON text of
two-byte or four-byte units. -/
def Encoding.ofBytes : List UInt8 → Encoding
  | a :: b :: c :: d :: _ =>
      if a = 0 then (if b = 0 then utf32 true else utf16 true)
      else if b = 0 then (if c = 0 ∧ d = 0 then utf32 false else utf16 false)
      else utf8
  | [a, b] => if a = 0 then utf16 true else if b = 0 then utf16 false else utf8
  | _ => utf8

/-- The scalar value of a pair of surrogates. -/
def joinSurrogates (high low : Nat) : Char := Char.ofNat (0x10000 + (high - 0xD800) * 0x400 + (low - 0xDC00))

def isSurrogate (n : Nat) : Bool := 0xD800 ≤ n && n < 0xE000

/-- Half a pair is no character. In a text a private one stands for it, sixteen planes above it. -/
def halfOffset : Nat := 0x100000

/-- A code unit on its own. -/
def unitChar (n : Nat) : Char := Char.ofNat (if isSurrogate n then n + halfOffset else n)

/-- The half of a pair that a character stands for. -/
def half? (c : Char) : Option Nat :=
  if isSurrogate (c.toNat - halfOffset) then some (c.toNat - halfOffset) else none

/-- Code units are told apart: the halves are seen, and nothing else is taken for one. -/
theorem half?_unitChar {n : Nat} (h : n < 0x10000) :
    half? (unitChar n) = if isSurrogate n then some n else none := by
  have hunit : (unitChar n).toNat = if isSurrogate n then n + halfOffset else n := by
    have hvalid : (if isSurrogate n then n + halfOffset else n).isValidChar := by
      simp only [isSurrogate, Nat.isValidChar, halfOffset, Bool.and_eq_true, decide_eq_true_eq]
      split <;> omega
    rw [unitChar, Char.ofNat, dif_pos hvalid]
    rfl
  cases hn : isSurrogate n with
  | true => simp [half?, hunit, hn]
  | false =>
    have hbelow : n - halfOffset = 0 := by simp only [halfOffset]; omega
    have hzero : isSurrogate 0 = false := rfl
    simp [half?, hunit, hn, hbelow, hzero]

/-- Code units of two bytes; a single byte at the end is refused. -/
def pairedUnits (bigEndian : Bool) : List UInt8 → Option (List Nat)
  | a :: b :: rest =>
      (pairedUnits bigEndian rest).map fun later =>
        (if bigEndian then 256 * a.toNat + b.toNat else 256 * b.toNat + a.toNat) :: later
  | [] => some []
  | _ => none

def ofUnits : List Nat → List Char
  | high :: low :: rest =>
      if 0xD800 ≤ high && high < 0xDC00 && 0xDC00 ≤ low && low < 0xE000 then
        joinSurrogates high low :: ofUnits rest
      else unitChar high :: ofUnits (low :: rest)
  | [n] => [unitChar n]
  | [] => []
termination_by units => units.length

/-- Characters of four bytes each; what is no code point is refused. -/
def ofQuadruples (bigEndian : Bool) : List UInt8 → Option (List Char)
  | a :: b :: c :: d :: rest =>
      let n :=
        if bigEndian then ((a.toNat * 256 + b.toNat) * 256 + c.toNat) * 256 + d.toNat
        else ((d.toNat * 256 + c.toNat) * 256 + b.toNat) * 256 + a.toNat
      if n < 0x110000 then (ofQuadruples bigEndian rest).map (unitChar n :: ·) else none
  | [] => some []
  | _ => none

/-- The text that the bytes of a text are taken for. A byte order mark before UTF-8 does not count. -/
def decoded (text : String) : Option String :=
  let bytes := text.toUTF8.toList
  match Encoding.ofBytes bytes with
  | .utf16 bigEndian => (pairedUnits bigEndian bytes).map fun units => String.ofList (ofUnits units)
  | .utf32 bigEndian => (ofQuadruples bigEndian bytes).map String.ofList
  | .utf8 =>
      match text.toList with
      | '\ufeff' :: rest => some (String.ofList rest)
      | _ => some text

end SchemaDesign.Json
