import SchemaDesign.Json.Value

/-! Labels: what stands where a schema names something. In a finished schema a label is a text; in a
document that nobody has checked yet it may be any JSON value. -/
namespace SchemaDesign

class Label (τ : Type) [BEq τ] where
  ofText : String → τ
  /-- Labels that count as missing. -/
  isEmpty : τ → Bool
  /-- The label as a choice; a label that stands for no choice reads as `none`. -/
  chosen : τ → Option τ
  /-- The label in generated code and in messages. -/
  shown : τ → String

instance : Label String where
  ofText s := s
  isEmpty s := s == ""
  chosen s := some s
  shown s := s

instance : Label Json where
  ofText := .str
  isEmpty j := !j.isTrue
  chosen
    | .null => none
    | j => some j
  shown := Json.shown

namespace Label

@[simp] theorem ofText_string (s : String) : (ofText s : String) = s := rfl

@[simp] theorem isEmpty_string (s : String) : isEmpty s = (s == "") := rfl

@[simp] theorem chosen_string (s : String) : chosen s = some s := rfl

@[simp] theorem shown_string (s : String) : shown s = s := rfl

end Label

end SchemaDesign
