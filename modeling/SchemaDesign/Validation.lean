import SchemaDesign.Model.Table
import SchemaDesign.Text.Blank
import SchemaDesign.Text.Digit
import SchemaDesign.Text.Join
import SchemaDesign.Text.Numeral
import SchemaDesign.Text.Quoted

/-! The gate that a table has to pass before it is committed. -/
namespace SchemaDesign.Validation

variable {τ : Type} [BEq τ] [Label τ]

/-- Column names hold no digits, white space or semicolons. -/
def isNameChar (c : Char) : Bool := c != ';' && !Text.isDigit c && !Text.isBlank c

/-- A nonempty run of name characters; one line break may end it. -/
def matchesName : List Char → Bool
  | [] => false
  | [c] => isNameChar c
  | [c, '\n'] => isNameChar c
  | c :: rest => isNameChar c && matchesName rest

def isValidName (s : String) : Bool := matchesName s.toList

def isValidLabel (name : τ) : Bool := !Label.isEmpty name && isValidName (Label.shown name)

def isValidColumn (c : Column τ) : Bool := isValidLabel c.name && !Label.isEmpty c.type

/-- One reason why a table cannot be committed. Positions count from one. -/
inductive Problem (τ : Type) where
  | tableNameMissing
  | noColumns
  | nameMissing (position : Nat)
  | nameInvalid (position : Nat) (name : τ)
  | nameDuplicate (position : Nat) (name : τ)
  | typeMissing (position : Nat)
deriving DecidableEq

def Problem.message : Problem τ → String
  | tableNameMissing => "Table name is required."
  | noColumns => "A table needs at least one column."
  | nameMissing p => "Column " ++ Text.writeInt p ++ ": name is required."
  | nameInvalid p name =>
      "Column " ++ Text.writeInt p ++ ": name " ++ Text.quoted (Label.shown name)
        ++ " may not contain digits, whitespace or semicolons."
  | nameDuplicate p name =>
      "Column " ++ Text.writeInt p ++ ": duplicate column name " ++ Text.quoted (Label.shown name) ++ "."
  | typeMissing p => "Column " ++ Text.writeInt p ++ ": type is required."

/-- What is wrong with a name after the names `seen` before it. -/
def nameProblems (seen : List τ) (position : Nat) (name : τ) : List (Problem τ) :=
  if Label.isEmpty name then [.nameMissing position]
  else if !isValidName (Label.shown name) then [.nameInvalid position name]
  else if seen.any (· == name) then [.nameDuplicate position name]
  else []

def columnProblems (seen : List τ) (position : Nat) (c : Column τ) : List (Problem τ) :=
  nameProblems seen position c.name ++ if Label.isEmpty c.type then [.typeMissing position] else []

def columnsProblems (seen : List τ) (position : Nat) : List (Column τ) → List (Problem τ)
  | [] => []
  | c :: rest => columnProblems seen position c ++ columnsProblems (c.name :: seen) (position + 1) rest

/-- Every reason against a table, in the order in which they are told. -/
def problems (name : τ) (columns : List (Column τ)) : List (Problem τ) :=
  (if Label.isEmpty name || (Text.trim (Label.shown name).toList).isEmpty then [.tableNameMissing] else [])
    ++ (if columns.isEmpty then [.noColumns] else [])
    ++ columnsProblems [] 1 columns

end SchemaDesign.Validation
