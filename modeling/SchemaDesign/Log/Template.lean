import SchemaDesign.Json.Places
import SchemaDesign.Json.Reader

/-! Messages with arguments. A placeholder is a percent sign, an optional key in parentheses, flags, a width,
a precision and a letter that says what is shown of the argument. -/
namespace SchemaDesign.Log

/-- How a text argument is shown: as it stands, quoted, or quoted in ASCII. -/
inductive Shape where
  | plain | quoted | ascii
deriving DecidableEq

/-- What is shown of an argument. Capital letters are used where `capital` says so. -/
inductive Conversion where
  | text (shape : Shape)
  | decimal
  | octal
  | hexadecimal (capital : Bool)
  | places (style : Binary64.Style) (capital : Bool)
  | character
deriving DecidableEq

def Conversion.letters : List (Char × Conversion) :=
  [('s', text .plain), ('r', text .quoted), ('a', text .ascii),
   ('d', decimal), ('i', decimal), ('u', decimal),
   ('o', octal), ('x', hexadecimal false), ('X', hexadecimal true),
   ('e', places .scientific false), ('E', places .scientific true),
   ('f', places .fixed false), ('F', places .fixed true),
   ('g', places .general false), ('G', places .general true), ('c', character)]

/-- A number in a placeholder: written there, or taken from the arguments. -/
inductive Size where
  | written (n : Nat)
  | taken
deriving DecidableEq

structure Placeholder where
  key : Option String
  flags : List Char
  width : Option Size
  precision : Option Size
  conversion : Conversion
deriving DecidableEq

inductive Piece where
  | literal (c : Char)
  | placeholder (p : Placeholder)
deriving DecidableEq

def isFlag (c : Char) : Bool := c == '-' || c == '+' || c == ' ' || c == '#' || c == '0'

def readSize : List Char → Option Size × List Char
  | '*' :: rest => (some .taken, rest)
  | s =>
      match s.takeWhile Json.isAsciiDigit with
      | [] => (none, s)
      | ds => (some (.written (Json.asciiValue ds)), s.dropWhile Json.isAsciiDigit)

/-- A point without a number stands for the precision zero. -/
def readPrecision : List Char → Option Size × List Char
  | '.' :: rest =>
      let r := readSize rest
      (some (r.1.getD (.written 0)), r.2)
  | s => (none, s)

/-- The text up to the parenthesis that closes the one before it; `depth` more are open. -/
def readKey (depth : Nat) : List Char → Option (List Char × List Char)
  | [] => none
  | c :: rest =>
      if c = ')' ∧ depth = 0 then some ([], rest)
      else
        let inner := if c = ')' then depth - 1 else if c = '(' then depth + 1 else depth
        (readKey inner rest).map fun r => (c :: r.1, r.2)

def readOptionalKey : List Char → Option (Option String × List Char)
  | '(' :: rest => (readKey 0 rest).map fun r => (some (String.ofList r.1), r.2)
  | s => some (none, s)

/-- One letter for the size of a number may stand before the last one; it says nothing. -/
def skipSizeLetter : List Char → List Char
  | c :: rest => if c = 'h' ∨ c = 'l' ∨ c = 'L' then rest else c :: rest
  | [] => []

/-- A placeholder behind its percent sign, and the text behind it. -/
def readPlaceholder (s : List Char) : Option (Placeholder × List Char) := do
  let (key, afterKey) ← readOptionalKey s
  let (width, afterWidth) := readSize (afterKey.dropWhile isFlag)
  let (precision, afterPrecision) := readPrecision afterWidth
  match skipSizeLetter afterPrecision with
  | [] => none
  | letter :: rest =>
      let conversion ← Conversion.letters.lookup letter
      return ({ key, flags := afterKey.takeWhile isFlag, width, precision, conversion }, rest)

/-- The pieces of a template; two percent signs stand for one. `fuel` bounds their number. -/
def piecesFrom : Nat → List Char → Option (List Piece)
  | _, [] => some []
  | 0, _ => none
  | fuel + 1, c :: rest =>
      if c = '%' then
        match rest with
        | '%' :: after => (piecesFrom fuel after).map (.literal '%' :: ·)
        | _ => do
            let (p, after) ← readPlaceholder rest
            return .placeholder p :: (← piecesFrom fuel after)
      else (piecesFrom fuel rest).map (.literal c :: ·)

def pieces (template : List Char) : Option (List Piece) := piecesFrom template.length template

/-- The arguments that are left. One object that is not empty gives its fields as well, by their keys. -/
structure Supply where
  fields : Option (List (String × Json))
  rest : List Json

namespace Supply

def ofArguments : List Json → Supply
  | [.obj (f :: fs)] => ⟨some (f :: fs), [.obj (f :: fs)]⟩
  | args => ⟨none, args⟩

def take (s : Supply) : Option (Json × Supply) :=
  match s.rest with
  | [] => none
  | j :: later => some (j, { s with rest := later })

/-- The field of a key is all that is left for its placeholder. -/
def select (s : Supply) (key : String) : Option Supply :=
  (s.fields.bind fun fs => fs.lookup key).map fun j => { s with rest := [j] }

/-- Every argument has to be shown, unless they have keys. -/
def isDone (s : Supply) : Bool := s.fields.isSome || s.rest.isEmpty

end Supply

/-- How the text of an argument is laid out. -/
structure Layout where
  left : Bool
  plus : Bool
  gap : Bool
  marked : Bool
  zeros : Bool
  width : Nat
  precision : Option Nat
deriving DecidableEq

def sizeFrom (size : Option Size) (s : Supply) : Option (Option Int × Supply) :=
  match size with
  | none => some (none, s)
  | some (.written n) => some (some n, s)
  | some .taken => do
      let (j, later) ← s.take
      return (some (← j.integer?), later)

/-- The layout that a placeholder asks for. A negative width is one with the text at the left. -/
def layoutFrom (p : Placeholder) (s : Supply) : Option (Layout × Supply) := do
  let (width, afterWidth) ← sizeFrom p.width s
  let (precision, later) ← sizeFrom p.precision afterWidth
  return ({
    left := p.flags.contains '-' || width.any (· < 0)
    plus := p.flags.contains '+'
    gap := p.flags.contains ' '
    marked := p.flags.contains '#'
    zeros := p.flags.contains '0'
    width := (width.getD 0).natAbs
    precision := precision.map (·.toNat) }, later)

namespace Layout

def spaces (n : Nat) : List Char := List.replicate n ' '

/-- Fills a text up with spaces. -/
def fill (l : Layout) (s : List Char) : List Char :=
  if l.left then s ++ spaces (l.width - s.length) else spaces (l.width - s.length) ++ s

/-- The sign of a number: a minus sign, or what stands for none. -/
def sign (l : Layout) (negative : Bool) : List Char :=
  if negative then ['-'] else if l.plus then ['+'] else if l.gap then [' '] else []

/-- Fills a number up, between its start and its digits where zeros are asked for. -/
def fillNumber (l : Layout) (start digits : List Char) : List Char :=
  if l.zeros && !l.left then
    start ++ List.replicate (l.width - (start.length + digits.length)) '0' ++ digits
  else l.fill (start ++ digits)

/-- At least as many digits as the precision says. -/
def padded (l : Layout) (digits : List Char) : List Char :=
  List.replicate (l.precision.getD 0 - digits.length) '0' ++ digits

def integer (l : Layout) (base : Nat) (mark : List Char) (n : Int) : List Char :=
  l.fillNumber (l.sign (n < 0) ++ if l.marked then mark else []) (l.padded (Nat.toDigits base n.natAbs))

/-- Six digits where no precision says otherwise. -/
def real (l : Layout) (style : Binary64.Style) (x : Binary64) : List Char :=
  match x.writeDigits style l.marked (l.precision.getD 6) with
  | '-' :: digits => l.fillNumber (l.sign true) digits
  | digits => l.fillNumber (l.sign false) digits

/-- At most as many characters as the precision says. -/
def text (l : Layout) (s : List Char) : List Char :=
  l.fill (match l.precision with
    | some n => s.take n
    | none => s)

end Layout

/-- Characters beyond ASCII are escaped by their code. -/
def asciiOnly (s : List Char) : List Char :=
  s.flatMap fun c => if c.toNat < 128 then [c] else Text.escapeCode c.toNat

def Shape.apply : Shape → Json → List Char
  | plain, j => j.shown.toList
  | quoted, j => j.quoted.toList
  | ascii, j => asciiOnly j.quoted.toList

/-- The integer that a number is cut to. -/
def cutInteger? : Json → Option Int
  | .real x => x.truncate?
  | j => j.integer?

/-- The double nearest to a number, unless it is too large. -/
def double? : Json → Option Binary64
  | .real x => some x
  | j => (j.integer?.map fun n => Binary64.nearest (n < 0) n.natAbs 1).filter (·.isFinite)

/-- The only character of a text, or the one of a code point. -/
def character? : Json → Option Char
  | .str s =>
      match s.toList with
      | [c] => some c
      | _ => none
  | j => (j.integer?.filter fun n => 0 ≤ n && n < 0x110000).map fun n => Char.ofNat n.toNat

def capitals (capital : Bool) (s : List Char) : List Char := if capital then s.map Char.toUpper else s

/-- What a placeholder shows of an argument, provided the argument is of the right kind. -/
def Conversion.apply (l : Layout) (j : Json) : Conversion → Option (List Char)
  | text shape => some (l.text (shape.apply j))
  | decimal => (cutInteger? j).map (l.integer 10 [])
  | octal => j.integer?.map (l.integer 8 ['0', 'o'])
  | hexadecimal capital => j.integer?.map fun n => capitals capital (l.integer 16 ['0', 'x'] n)
  | places style capital => (double? j).map fun x => capitals capital (l.real style x)
  | character => (character? j).map fun c => l.fill [c]

/-- A template with its placeholders filled; `none` if it is malformed or the arguments do not fit. -/
def filled : List Piece → Supply → Option (List Char)
  | [], s => if s.isDone then some [] else none
  | .literal c :: rest, s => (filled rest s).map (c :: ·)
  | .placeholder p :: rest, s => do
      let chosen ← match p.key with
        | some key => s.select key
        | none => some s
      let (layout, afterLayout) ← layoutFrom p chosen
      let (j, later) ← afterLayout.take
      return (← p.conversion.apply layout j) ++ (← filled rest later)

/-- A message without arguments stands as it is. -/
def message? (template : String) (args : List Json) : Option String :=
  if args.isEmpty then some template
  else do
    let parts ← pieces template.toList
    (filled parts (Supply.ofArguments args)).map String.ofList

end SchemaDesign.Log
