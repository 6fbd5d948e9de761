import SchemaDesign.Json.Value

/-! What can be wrong with an unchecked document: a value of a kind that does not support what is asked
of it. -/
namespace SchemaDesign.Document

/-- `notKey` is a list or an object where a key is due, and `notCut` an object whose beginning is asked
for. -/
inductive Fault where
  | noMember (kind : Json.Kind) (member : String)
  | notIterable (kind : Json.Kind)
  | notIndexable (kind : Json.Kind)
  | notText (kind : Json.Kind)
  | notKey (kind : Json.Kind)
  | notCut
  | infiniteLength
deriving DecidableEq

def Fault.message : Fault → String
  | noMember kind member => "'" ++ kind.name ++ "' object has no attribute '" ++ member ++ "'"
  | notIterable kind => "'" ++ kind.name ++ "' object is not iterable"
  | notIndexable kind => "'" ++ kind.name ++ "' object is not subscriptable"
  | notText kind => "expected string or bytes-like object, got '" ++ kind.name ++ "'"
  | notKey kind => "unhashable type: '" ++ kind.name ++ "'"
  | notCut => "unhashable type: 'slice'"
  | infiniteLength => "cannot convert float infinity to integer"

end SchemaDesign.Document
