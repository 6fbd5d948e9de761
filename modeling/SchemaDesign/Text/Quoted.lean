import SchemaDesign.Text.Printable

/-! Quoted form of a text: between quote marks, with backslash escapes for what cannot be shown. -/
namespace SchemaDesign.Text

/-- A single quote, or a double one where the text holds single quotes and no double ones. -/
def quoteMark (s : List Char) : Char :=
  if s.contains '\x27' && !s.contains '\x22' then '\x22' else '\x27'

/-- The last `width` hexadecimal digits of `n`. -/
def hexadecimal : Nat → Nat → List Char
  | 0, _ => []
  | width + 1, n => hexadecimal width (n / 16) ++ [Nat.digitChar (n % 16)]

/-- Numeric escape of the shortest of the three widths that holds the code point. -/
def escapeCode (n : Nat) : List Char :=
  if n < 256 then '\\' :: 'x' :: hexadecimal 2 n
  else if n < 65536 then '\\' :: 'u' :: hexadecimal 4 n
  else '\\' :: 'U' :: hexadecimal 8 n

def escapeIn (mark : Char) (c : Char) : List Char :=
  if c = mark ∨ c = '\\' then ['\\', c]
  else if c = '\n' then ['\\', 'n']
  else if c = '\r' then ['\\', 'r']
  else if c = '\t' then ['\\', 't']
  else if isPrintable c then [c]
  else escapeCode c.toNat

def quoted (s : String) : String :=
  let mark := quoteMark s.toList
  String.ofList (mark :: s.toList.flatMap (escapeIn mark) ++ [mark])

end SchemaDesign.Text
