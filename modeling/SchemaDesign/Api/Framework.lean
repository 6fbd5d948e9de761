import SchemaDesign.Api.Refusal
import SchemaDesign.Document.Encode
import SchemaDesign.Text.Numeral

/-! What the service is built on and has no say in: how values of a body are validated, where a request
leads, how a body is read, and what cannot be sent. -/
namespace SchemaDesign.Api

/-! Validation -/

/-- What a value at some place of a body stands for, or all that is wrong with it. -/
abbrev Validator (α : Type) := List Step → Json → Checked α

/-- The parts that models of bodies are made of. -/
structure Validators where
  text : Validator String
  integer : Validator Int
  flag : Validator Bool
  /-- Null stands for none. -/
  nullable : {α : Type} → Validator α → Validator (Option α)
  list : {α : Type} → Validator α → Validator (List α)
  /-- The fields of a model are those of an object. -/
  model : {α : Type} → Validator α → Validator α
  /-- A field behind other ones. It has to be there unless there is a default. -/
  field : {α β : Type} → Validator (α → β) → String → Option α → Validator α → Validator β
  /-- A model of a column, written out. -/
  dump : Column String → Json

/-- Values of the very kind that is asked for stand for themselves, an object for a model if its fields
stand for those of the model, and what is written out are the fields. -/
structure Validators.Exact (v : Validators) : Prop where
  text : ∀ place s, v.text place (.str s) = .ok s
  integer : ∀ place n, v.integer place (.int n) = .ok n
  flag : ∀ place b, v.flag place (.bool b) = .ok b
  null : ∀ {α : Type} (read : Validator α) place, v.nullable read place .null = .ok none
  present : ∀ {α : Type} (read : Validator α) place j a, j.kind ≠ .null → read place j = .ok a →
    v.nullable read place j = .ok (some a)
  model : ∀ {α : Type} (read : Validator α) place fields a, read place (.obj fields) = .ok a →
    v.model read place (.obj fields) = .ok a
  field : ∀ {α β : Type} (earlier : Validator (α → β)) key default (read : Validator α) place j f x a,
    earlier place j = .ok f → j.field? key = some x → read (place ++ [.field key]) x = .ok a →
    v.field earlier key default read place j = .ok (f a)
  dump : ∀ c, v.dump c = Document.writeColumn (c.map .str)

/-- A model without fields so far. -/
def fieldless {α : Type} (make : α) : Validator α := fun _ _ => .ok make

/-- A validator that sees a value only after it was prepared. -/
def prepared {α : Type} (prepare : Json → Json) (read : Validator α) : Validator α :=
  fun place j => read place (prepare j)

/-! Requests and answers -/

structure Request where
  method : String
  path : String
  body : String

structure Response where
  status : Nat
  body : Option Json

def detail (status : Nat) (j : Json) : Response := ⟨status, some (.obj [("detail", j)])⟩

/-- What a request can break off with: a number in DDL text that is too long, or a fault of the framework,
which has a name and a message. -/
inductive Breakdown where
  | numeral (e : Text.NumeralFault)
  | framework (name message : String)
deriving DecidableEq

def Breakdown.message : Breakdown → String
  | numeral e => e.message ""
  | framework _ message => message

abbrev Answer := Except Breakdown Response

/-- What a request is to do. -/
inductive Operation where
  | describe
  | report
  | list
  | create
  | importDdl
  | get (id : String)
  | replace (id : String)
  | remove (id : String)
  | download (format : String)
deriving DecidableEq

/-- Where a request leads: to an operation, or nowhere, which has an answer of its own. -/
inductive Destination where
  | operation (op : Operation)
  | answer (r : Response)

structure Framework extends Validators where
  route : String → List Char → Destination
  /-- The value of a body, or the answer in place of the operation's. -/
  value : String → Except Answer Json
  /-- The answer to a body with faults. -/
  refused : List Refusal → Answer
  /-- What keeps a response from being sent. -/
  fault? : Response → Option Breakdown

namespace Framework

/-- What a body stands for, or the answer that it gets. -/
def read {α : Type} (fw : Framework) (model : Validator α) (body : String) : Except Answer α := do
  let j ← fw.value body
  (model [.field "body"] j).mapError fw.refused

def send (fw : Framework) (r : Response) : Answer :=
  match fw.fault? r with
  | none => .ok r
  | some e => .error e

end Framework

end SchemaDesign.Api
