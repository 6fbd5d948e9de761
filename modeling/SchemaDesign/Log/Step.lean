import SchemaDesign.Log.Output
import SchemaDesign.Log.Template

/-! Steps of logging that documents describe: a step sets up the output, or puts one record. -/
namespace SchemaDesign.Log

/-- Why a step cannot be taken. Values stand as messages quote them. -/
inductive Fault where
  | unknownLevel (quoted : String)
  | noLevel (quoted : String)
  | notInteger
  | noPath (kind : Json.Kind)
  | file (e : OpenFault)
deriving DecidableEq

def Fault.message : Fault → String
  | unknownLevel quoted => "Unknown level: " ++ quoted
  | noLevel quoted => "Level not an integer or a valid string: " ++ quoted
  | notInteger => "level must be an integer"
  | noPath kind => "expected str, bytes or os.PathLike object, not " ++ kind.name
  | file e => e.message

/-- A level is given as a number or by its name, or left to the settings. -/
def readLevel : Json → Except Fault (Option Int)
  | .null => .ok none
  | .str name =>
      match levelNames.lookup name with
      | some n => .ok (some n)
      | none => .error (.unknownLevel (Json.str name).quoted)
  | j =>
      match j.integer? with
      | some n => .ok (some n)
      | none => .error (.noLevel j.quoted)

/-- A file is given by its path or left to the settings; the empty path stands for none. -/
def readFile : Json → Except Fault (Option String)
  | .null => .ok none
  | .str path => .ok (some path)
  | j => if j.isTrue then .error (.noPath j.kind) else .ok (some "")

namespace Output

def setUp (o : Output) (settings : LogSettings) (step : Json) : Except Fault Output := do
  let level ← readLevel (step.field "level" .null)
  let file ← readFile (step.field "file" .null)
  (o.configureFrom settings level file).mapError .file

/-- Puts a record to the logger of a name. A message that does not fit its arguments is not recorded. -/
def put (o : Output) (name : Json) (step : Json) : Except Fault Output :=
  match (step.field "level" .null).integer? with
  | none => .error .notInteger
  | some level =>
      let args := match step.field? "args" with
        | some (.arr items) => items
        | _ => []
      match message? (step.field "message" (.str "")).shown args with
      | some message => .ok (o.emit level (rootName ++ "." ++ name.shown) message)
      | none => .ok o

end Output

end SchemaDesign.Log
