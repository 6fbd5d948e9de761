import SchemaDesign.Ddl.Scan
import SchemaDesign.Text.Numeral

/-! The pieces of a table body and what each of them is: a key clause, a column, or neither. -/
namespace SchemaDesign.Ddl
open Text

/-- How many more parentheses are open after a character. -/
def depthChange (c : Char) : Int := if c = '(' then 1 else if c = ')' then -1 else 0

/-- The text cut at the commas that stand outside all parentheses. -/
def cutAtCommas (depth : Int) : List Char → List (List Char)
  | [] => [[]]
  | c :: s =>
      if c = ',' ∧ depth = 0 then [] :: cutAtCommas depth s
      else
        match cutAtCommas (depth + depthChange c) s with
        | piece :: rest => (c :: piece) :: rest
        | [] => [[c]]

/-- The pieces of a body that are not blank, without the blanks at their ends. -/
def pieces (body : List Char) : List (List Char) :=
  ((cutAtCommas 0 body).map trim).filter (!·.isEmpty)

/-- The column of a table that a foreign key points at, by name. -/
structure Target where
  table : String
  column : String
deriving DecidableEq

/-- A column as it is written. `modifiers` is all that follows its type. -/
structure Definition where
  name : List Char
  type : List Char
  length : Option (List Char)
  modifiers : List Char
deriving DecidableEq

/-- The name of a constraint, where one is given. -/
def constraintName (s : List Char) : Option (List Char) := do
  let (_, rest) ← run (!isBlank ·) (← gap (← keyword "CONSTRAINT".toList s))
  gap rest

/-- `PRIMARY KEY (name)` and no more. -/
def primaryKeyClause? (s : List Char) : Option String := do
  let s ← phrase ["PRIMARY".toList, "KEY".toList] ((constraintName s).getD s)
  let (column, rest) ← parenthesisedName s
  if rest.isEmpty then return String.ofList column else none

/-- `REFERENCES table (column)`. -/
def referencesClause? (s : List Char) : Option Target := do
  let (table, rest) ← name (← gap (← keyword "REFERENCES".toList s))
  let (column, _) ← parenthesisedName rest
  return ⟨String.ofList table, String.ofList column⟩

/-- `FOREIGN KEY (name) REFERENCES table (column)`; what follows does not matter. -/
def foreignKeyClause? (s : List Char) : Option (String × Target) := do
  let s ← phrase ["FOREIGN".toList, "KEY".toList] ((constraintName s).getD s)
  let (column, rest) ← parenthesisedName s
  return (String.ofList column, ← referencesClause? (skipBlanks rest))

def keyWords (s : List Char) : Bool :=
  ((phrase ["PRIMARY".toList, "KEY".toList] s).orElse
    fun _ => phrase ["FOREIGN".toList, "KEY".toList] s).any wordEnds

def indexWord (s : List Char) : Option (List Char) :=
  (keyword "INDEX".toList s).orElse fun _ => keyword "KEY".toList s

def uniqueWords (s : List Char) : Bool :=
  (keyword "UNIQUE".toList s).any fun rest =>
    (spacedMark '(' rest).isSome || (indexWord (skipBlanks rest)).any wordEnds

def checkWords (s : List Char) : Bool := ((keyword "CHECK".toList s).bind (spacedMark '(')).isSome

/-- Whether a column name could begin here, as the columns of an index do; a length could not. -/
def namesColumn : List Char → Bool
  | c :: _ => isQuote c || isLetter c || c == '_'
  | [] => false

def indexWords (s : List Char) : Bool :=
  (indexWord s).any fun rest =>
    (spacedMark '(' rest).isSome
      || (do spacedMark '(' (← name (← gap rest)).2).any fun inner => namesColumn (skipBlanks inner)

/-- Whether a piece is a clause of the table. The word that leads it may also be the name of a column, so
it must be used as in a clause. -/
def isTableClause (s : List Char) : Bool :=
  (constraintName s).any (fun rest => keyWords rest || uniqueWords rest || checkWords rest)
    || keyWords s || uniqueWords s || checkWords s || indexWords s

def isNameChar (c : Char) : Bool :=
  !isBlank c && !isQuote c && c != ',' && c != '(' && c != ')'

/-- The text in parentheses behind a type, without the blanks at its ends. -/
def qualifier (s : List Char) : Option (List Char) × List Char :=
  match spacedMark '(' s with
  | none => (none, s)
  | some inner =>
      match inner.dropWhile (· != ')') with
      | [] => (none, s)
      | _ :: rest => (some (trim (inner.takeWhile (· != ')'))), rest)

def definition? (s : List Char) : Option Definition := do
  let (name, rest) ← run isNameChar (skipQuote s)
  let (type, rest) ← run isLetter (← gap (skipQuote rest))
  let (length, modifiers) := qualifier rest
  return { name, type, length, modifiers }

/-- The first references clause in a text that begins as a word. -/
def inlineTarget? (inWord : Bool) : List Char → Option Target
  | [] => none
  | c :: s =>
      (if inWord then none else referencesClause? (c :: s)).orElse fun _ => inlineTarget? (isWord c) s

inductive Piece where
  | primaryKey (column : String)
  | foreignKey (column : String) (target : Target)
  | unsupported
  | unrecognised
  | column (definition : Definition) (inlined : Option Target)
deriving DecidableEq

/-- The first form that a piece has. -/
def Piece.ofText (s : List Char) : Piece :=
  match primaryKeyClause? s with
  | some name => primaryKey name
  | none =>
      match foreignKeyClause? s with
      | some (name, target) => foreignKey name target
      | none =>
          if isTableClause s then unsupported
          else
            match definition? s with
            | some d => column d (inlineTarget? false s)
            | none => unrecognised

namespace Definition

/-- The length is a number of decimal digits; any other qualifier is none. -/
def typeLength (d : Definition) : Except NumeralFault (Option Int) :=
  match d.length with
  | some digits =>
      if !digits.isEmpty && digits.all isDigit then (readNat digits).map fun n => some (n : Int)
      else .ok none
  | none => .ok none

def notNull (d : Definition) : Bool :=
  hasPhrase ["NOT".toList, "NULL".toList] false d.modifiers

def unique (d : Definition) : Bool := hasPhrase ["UNIQUE".toList] false d.modifiers

def primaryKey (d : Definition) : Bool :=
  hasPhrase ["PRIMARY".toList, "KEY".toList] false d.modifiers

end Definition

end SchemaDesign.Ddl
