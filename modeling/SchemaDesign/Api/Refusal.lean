import SchemaDesign.Json.Value

/-! Why a request body is refused: a list of faults, each with the place where it stands. -/
namespace SchemaDesign.Api

inductive RefusalKind where
  | missing | jsonInvalid | modelType | listType | stringType
  | intFromFloat | intParsing | intSize | intType | finiteNumber | boolParsing | boolType
deriving DecidableEq

def RefusalKind.name : RefusalKind → String
  | missing => "missing"
  | jsonInvalid => "json_invalid"
  | modelType => "model_attributes_type"
  | listType => "list_type"
  | stringType => "string_type"
  | intFromFloat => "int_from_float"
  | intParsing => "int_parsing"
  | intSize => "int_parsing_size"
  | intType => "int_type"
  | finiteNumber => "finite_number"
  | boolParsing => "bool_parsing"
  | boolType => "bool_type"

/-- A step on the way into a body. -/
inductive Step where
  | field (name : String)
  | position (index : Nat)
deriving DecidableEq

/-- `input` is the value that was refused; of a missing field it is the object that lacks it. -/
structure Refusal where
  kind : RefusalKind
  place : List Step
  input : Json

def Step.toJson : Step → Json
  | field name => .str name
  | position index => .int index

def Refusal.toJson (r : Refusal) : Json := .arr [.str r.kind.name, .arr (r.place.map (·.toJson))]

/-- A value, or all that is wrong with it. -/
abbrev Checked (α : Type) := Except (List Refusal) α

namespace Checked

def refuse {α : Type} (kind : RefusalKind) (place : List Step) (input : Json) : Checked α :=
  .error [⟨kind, place, input⟩]

/-- Both faults are told where both parts are wrong. -/
def both {α β γ : Type} (join : α → β → γ) : Checked α → Checked β → Checked γ
  | .ok a, .ok b => .ok (join a b)
  | .ok _, .error e => .error e
  | .error e, .ok _ => .error e
  | .error e, .error f => .error (e ++ f)

/-- The next part of a record whose earlier parts are read. -/
def next {α β : Type} (f : Checked (α → β)) (x : Checked α) : Checked β := both (fun g a => g a) f x

/-- Reads the items of a list from a position on. -/
def items {α : Type} (read : Nat → Json → Checked α) (index : Nat) : List Json → Checked (List α)
  | [] => .ok []
  | j :: rest => both (· :: ·) (read index j) (items read (index + 1) rest)

end Checked

end SchemaDesign.Api
