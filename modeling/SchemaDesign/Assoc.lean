/-! Association lists in the order in which their keys were first put. -/
namespace SchemaDesign.Assoc

variable {κ α : Type} [BEq κ]

/-- The last value of a repeated key, at the place of its first. -/
def put (key : κ) (value : α) : List (κ × α) → List (κ × α)
  | [] => [(key, value)]
  | (k, v) :: rest => if k == key then (k, value) :: rest else (k, v) :: put key value rest

/-- Keeps the value that a key already has. -/
def putNew (key : κ) (value : α) (entries : List (κ × α)) : List (κ × α) :=
  if entries.any (·.1 == key) then entries else put key value entries

def get? (key : κ) (entries : List (κ × α)) : Option α := (entries.find? (·.1 == key)).map (·.2)

end SchemaDesign.Assoc
