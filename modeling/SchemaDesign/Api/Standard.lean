import SchemaDesign.Api.Numeral
import SchemaDesign.Api.Route
import SchemaDesign.Json.Reader

/-! The framework that the service runs on. Texts are taken as they are; numbers and flags are also taken
from texts that write them, and unknown fields do not matter. -/
namespace SchemaDesign.Api

/-! Validation -/

def readText (place : List Step) : Json → Checked String
  | .str s => .ok s
  | j => .refuse .stringType place j

def integerOfReal (place : List Step) (x : Binary64) : Checked Int :=
  if !x.isFinite then .refuse .finiteNumber place (.real x)
  else
    match x.integer? with
    | some n => if isBelowBound n then .ok n else .refuse .intSize place (.real x)
    | none => .refuse .intFromFloat place (.real x)

def readInteger (place : List Step) : Json → Checked Int
  | .bool b => .ok (if b then 1 else 0)
  | .int n => .ok n
  | .real x => integerOfReal place x
  | .str s =>
      match integerOfText s.toList with
      | .ok n => .ok n
      | .error .malformed => .refuse .intParsing place (.str s)
      | .error .tooLong => .refuse .intSize place (.str s)
  | j => .refuse .intType place j

def flagWords : List (String × Bool) :=
  [("0", false), ("off", false), ("f", false), ("false", false), ("n", false), ("no", false),
   ("1", true), ("on", true), ("t", true), ("true", true), ("y", true), ("yes", true)]

/-- Zero and one are flags. -/
def flagOfInteger? (n : Int) : Option Bool := if n = 0 then some false else if n = 1 then some true else none

/-- Whether a value is taken for a flag at all: a text, or a number that is an integer of 64 bits. -/
def isFlagLike : Json → Bool
  | .int n => n == -wordBound || isBelowBound n
  | .real x => x.integer?.any isBelowBound
  | .str _ => true
  | _ => false

/-- The words for flags are read whatever the case of their letters. -/
def flag? : Json → Option Bool
  | .bool b => some b
  | .int n => flagOfInteger? n
  | .real x => x.integer?.bind flagOfInteger?
  | .str s => flagWords.lookup s.toLower
  | _ => none

def readFlag (place : List Step) (j : Json) : Checked Bool :=
  match flag? j with
  | some b => .ok b
  | none => .refuse (if isFlagLike j then .boolParsing else .boolType) place j

def readNullable {α : Type} (read : Validator α) (place : List Step) : Json → Checked (Option α)
  | .null => .ok none
  | j => (read place j).map some

def readList {α : Type} (read : Validator α) (place : List Step) : Json → Checked (List α)
  | .arr items => Checked.items (fun index => read (place ++ [.position index])) 0 items
  | j => .refuse .listType place j

def readModel {α : Type} (read : Validator α) (place : List Step) (j : Json) : Checked α :=
  if j.kind = .obj then read place j else .refuse .modelType place j

/-- What is refused of a field that is missing is the object that lacks it. -/
def readField {α β : Type} (earlier : Validator (α → β)) (key : String) (default : Option α)
    (read : Validator α) (place : List Step) (j : Json) : Checked β :=
  (earlier place j).next
    (match j.field? key, default with
      | some x, _ => read (place ++ [.field key]) x
      | none, some a => .ok a
      | none, none => .refuse .missing (place ++ [.field key]) j)

def standardValidators : Validators where
  text := readText
  integer := readInteger
  flag := readFlag
  nullable := readNullable
  list := readList
  model := readModel
  field := readField
  dump c := Document.writeColumn (c.map .str)

/-! Halves of pairs, which cannot be sent -/

def hasHalf (s : String) : Bool := s.toList.any fun c => (Json.half? c).isSome

mutual

/-- The first text in a value that holds half of a pair. -/
def halfText? : Json → Option String
  | .str s => if hasHalf s then some s else none
  | .arr xs => halfItem? xs
  | .obj fs => halfField? fs
  | _ => none

def halfItem? : List Json → Option String
  | [] => none
  | x :: xs => (halfText? x).or (halfItem? xs)

def halfField? : List (String × Json) → Option String
  | [] => none
  | (key, x) :: fs => if hasHalf key then some key else (halfText? x).or (halfField? fs)

end

/-- Where the first halves stand in a text. A single one is told. -/
def halvesMessage (s : String) : String :=
  let before := s.toList.takeWhile fun c => (Json.half? c).isNone
  let halves := (s.toList.drop before.length).takeWhile fun c => (Json.half? c).isSome
  let place := match halves.filterMap Json.half? with
    | [n] =>
        "character '" ++ String.ofList (Text.escapeCode n) ++ "' in position " ++ Text.writeInt before.length
    | several =>
        "characters in position " ++ Text.writeInt before.length ++ "-"
          ++ Text.writeInt (before.length + several.length - 1)
  "'utf-8' codec can't encode " ++ place ++ ": surrogates not allowed"

/-- The responses of operations that fail tell nothing of tables. -/
def sendFault? (r : Response) : Option Breakdown :=
  if 400 ≤ r.status then none
  else (r.body.bind halfText?).map fun s =>
    .framework "PydanticSerializationError"
      ("Error serializing to JSON: UnicodeEncodeError: " ++ halvesMessage s)

/-! Bodies -/

/-- The greatest number of lists and objects within each other in a body. -/
def maxDepth : Nat := 960

def bodyLimits : Json.Limits := ⟨some Text.maxDigits, some maxDepth⟩

/-- What was refused is shown, too, which only finite numbers and whole texts can be. -/
def refusedBody (refusals : List Refusal) : Answer :=
  if !refusals.all (·.input.isFinite) then
    .error (.framework "ValueError" "Out of range float values are not JSON compliant")
  else if refusals.any fun r => (halfText? r.input).isSome then
    .error (.framework "UnicodeEncodeError" "surrogates not allowed")
  else .ok (detail 422 (.arr (refusals.map (·.toJson))))

def readBody (body : String) : Except Answer Json :=
  if body.isEmpty then .error (refusedBody [⟨.missing, [.field "body"], .null⟩])
  else
    match (Json.decoded body).map (Json.read bodyLimits) with
    | some (.ok j) => .ok j
    | some (.error .malformed) => .error (refusedBody [⟨.jsonInvalid, [], .null⟩])
    | _ => .error (.ok (detail 400 (.str "There was an error parsing the body")))

def standard : Framework where
  toValidators := standardValidators
  route := destination
  value := readBody
  refused := refusedBody
  fault? := sendFault?

end SchemaDesign.Api
