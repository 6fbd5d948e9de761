import SchemaDesign.Json.Value

/-! Writing JSON text in ASCII. -/
namespace SchemaDesign.Json

def escapeUnit (n : Nat) : List Char := '\\' :: 'u' :: Text.hexadecimal 4 n

/-- Characters above the basic plane are written as a pair of surrogates. -/
def escapeChar (c : Char) : List Char :=
  if c = '\x22' ∨ c = '\\' then ['\\', c]
  else if 32 ≤ c.toNat ∧ c.toNat < 127 then [c]
  else if c.toNat < 0x10000 then escapeUnit c.toNat
  else
    let n := c.toNat - 0x10000
    escapeUnit (0xD800 + n / 0x400) ++ escapeUnit (0xDC00 + n % 0x400)

def writeText (s : String) : String :=
  String.ofList ('\x22' :: s.toList.flatMap escapeChar ++ ['\x22'])

/-- Numbers that JSON has no word for are written as they are read. -/
def writeReal : Binary64 → String
  | .undefined => "NaN"
  | .infinite negative => if negative then "-Infinity" else "Infinity"
  | x => x.write

mutual

def write : Json → String
  | null => "null"
  | bool b => if b then "true" else "false"
  | int n => Text.writeInt n
  | real x => writeReal x
  | str s => writeText s
  | arr xs => "[" ++ writeItems "" xs ++ "]"
  | obj fs => "\x7b" ++ writeFields "" fs ++ "\x7d"

def writeItems (gap : String) : List Json → String
  | [] => ""
  | x :: xs => gap ++ write x ++ writeItems "," xs

def writeFields (gap : String) : List (String × Json) → String
  | [] => ""
  | (k, v) :: fs => gap ++ writeText k ++ ":" ++ write v ++ writeFields "," fs

end

end SchemaDesign.Json
