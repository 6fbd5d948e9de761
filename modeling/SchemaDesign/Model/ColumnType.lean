import SchemaDesign.Model.Table
import SchemaDesign.Text.LowerCase

/-! The column types that every export target knows, and the keywords that name them. -/
namespace SchemaDesign

inductive ColumnType where
  | int | char | varchar | binary | varbinary | text | blob | boolean
deriving DecidableEq

namespace ColumnType

def all : List ColumnType := [int, char, varchar, binary, varbinary, text, blob, boolean]

def keyword : ColumnType → String
  | int => "int"
  | char => "char"
  | varchar => "varchar"
  | binary => "binary"
  | varbinary => "varbinary"
  | text => "text"
  | blob => "blob"
  | boolean => "boolean"

def ofKeyword? (s : String) : Option ColumnType := all.find? (·.keyword == s)

/-- Whether a text is a keyword, case apart. -/
def isKeyword (s : String) : Bool := (ofKeyword? (String.ofList (Text.lower s.toList))).isSome

end ColumnType

namespace Column

variable {τ : Type} [BEq τ] [Label τ]

/-- The type keyword in lower case, without white space around it. -/
def baseType (c : Column τ) : String :=
  if Label.isEmpty c.type then ""
  else String.ofList (Text.lower (Text.trim (Label.shown c.type).toList))

def columnType? (c : Column τ) : Option ColumnType := ColumnType.ofKeyword? c.baseType

/-- A length of zero counts as none. -/
def length? {τ : Type} (c : Column τ) : Option Int := c.typeLength.filter (· != 0)

end Column

end SchemaDesign
