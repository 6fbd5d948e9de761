import SchemaDesign.Json.Binary64
import SchemaDesign.Text.Quoted

/-! JSON values: lookup, truth, equality of values, and the two ways a value is written in running text. -/
namespace SchemaDesign

/-- The fields of an object stand in the order of their first occurrence, each key once. -/
inductive Json where
  | null
  | bool (value : Bool)
  | int (value : Int)
  | real (value : Binary64)
  | str (value : String)
  | arr (items : List Json)
  | obj (fields : List (String × Json))

namespace Json

/-- The kinds of value that messages tell apart. -/
inductive Kind where
  | null | bool | int | real | str | arr | obj
deriving DecidableEq

def kind : Json → Kind
  | null => .null
  | bool _ => .bool
  | int _ => .int
  | real _ => .real
  | str _ => .str
  | arr _ => .arr
  | obj _ => .obj

def Kind.name : Kind → String
  | .null => "NoneType"
  | .bool => "bool"
  | .int => "int"
  | .real => "float"
  | .str => "str"
  | .arr => "list"
  | .obj => "dict"

/-- Null, false, zero, and the empty text, list and object are false. -/
def isTrue : Json → Bool
  | null => false
  | bool b => b
  | int n => n != 0
  | real x => !x.isZero
  | str s => s != ""
  | arr xs => !xs.isEmpty
  | obj fs => !fs.isEmpty

mutual

/-- Whether every number in a value is finite. -/
def isFinite : Json → Bool
  | real x => x.isFinite
  | arr xs => finiteItems xs
  | obj fs => finiteFields fs
  | _ => true

def finiteItems : List Json → Bool
  | [] => true
  | x :: xs => isFinite x && finiteItems xs

def finiteFields : List (String × Json) → Bool
  | [] => true
  | (_, v) :: fs => isFinite v && finiteFields fs

end

/-- The value of a field; an absent field and a field of a value that is no object read as `none`. -/
def field? (j : Json) (key : String) : Option Json :=
  match j with
  | obj fs => fs.lookup key
  | _ => none

def field (j : Json) (key : String) (absent : Json) : Json := (j.field? key).getD absent

/-- Booleans count as zero and one. -/
def integer? : Json → Option Int
  | bool b => some (if b then 1 else 0)
  | int n => some n
  | _ => none

/-- A double equals the integer it is. -/
def sameNumber (a b : Json) : Bool :=
  match a, b with
  | real x, real y => x.same y
  | real x, _ => x.integer?.isSome && x.integer? == b.integer?
  | _, real y => y.integer?.isSome && y.integer? == a.integer?
  | _, _ => a.integer?.isSome && a.integer? == b.integer?

mutual

/-- Equality of values: numbers and booleans by value, lists by items, objects whatever the order. -/
def same : Json → Json → Bool
  | null, null => true
  | str s, str t => s == t
  | arr xs, arr ys => sameItems xs ys
  | obj fs, obj gs => fs.length == gs.length && sameFields fs gs
  | a, b => sameNumber a b

def sameItems : List Json → List Json → Bool
  | [], [] => true
  | x :: xs, y :: ys => same x y && sameItems xs ys
  | _, _ => false

def sameFields : List (String × Json) → List (String × Json) → Bool
  | [], _ => true
  | (k, v) :: fs, gs =>
      (match gs.lookup k with
        | some w => same v w
        | none => false) && sameFields fs gs

end

instance : BEq Json := ⟨same⟩

mutual

/-- The form a value has inside a list or an object, and where a message quotes it. -/
def quoted : Json → String
  | null => "None"
  | bool b => if b then "True" else "False"
  | int n => Text.writeInt n
  | real x => x.write
  | str s => Text.quoted s
  | arr xs => "[" ++ quotedItems "" xs ++ "]"
  | obj fs => "\x7b" ++ quotedFields "" fs ++ "\x7d"

def quotedItems (gap : String) : List Json → String
  | [] => ""
  | x :: xs => gap ++ quoted x ++ quotedItems ", " xs

def quotedFields (gap : String) : List (String × Json) → String
  | [] => ""
  | (k, v) :: fs => gap ++ Text.quoted k ++ ": " ++ quoted v ++ quotedFields ", " fs

end

/-- The form a value has in generated code and in log messages: a text stands as it is. -/
def shown : Json → String
  | str s => s
  | j => j.quoted

end Json

end SchemaDesign
