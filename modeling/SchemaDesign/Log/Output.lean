import SchemaDesign.Assoc
import SchemaDesign.Log.Files
import SchemaDesign.Log.Record
import SchemaDesign.Settings

/-! Where log records go: the console, and a file that can be added. -/
namespace SchemaDesign.Log

def rootName : String := "tabledraft"

/-- Components that are named otherwise than by the last part of their logger. -/
def namedComponents : List (String × Component) :=
  [("core.ddl_parser", .parser), ("core.schema_store", .store), ("core.exporter", .exporter)]

def withoutStart : List Char → List Char → Option (List Char)
  | [], s => some s
  | c :: cs, d :: ds => if c == d then withoutStart cs ds else none
  | _ :: _, [] => none

/-- What follows the last point. -/
def lastPart (s : List Char) : List Char := (s.reverse.takeWhile (· != '.')).reverse

/-- The component that a logger's records are tagged with. -/
def componentOf (logger : String) : String :=
  let full := logger.toList
  let inner := (withoutStart (rootName ++ ".").toList full).getD full
  match namedComponents.lookup (String.ofList inner) with
  | some c => c.tag
  | none =>
      if (withoutStart "services.".toList inner).isSome then Component.api.tag
      else String.ofList (lastPart inner)

inductive Handler where
  | console (level : Int)
  | file (level : Int) (place : Place)
deriving DecidableEq

namespace Handler

def level : Handler → Int
  | console n => n
  | file n _ => n

def kind : Handler → String
  | console _ => "console"
  | file _ _ => "file"

end Handler

/-- The state of logging. `console` holds the lines shown since they were last taken. -/
structure Output where
  level : Int
  handlers : List Handler
  console : List String
  files : Files
deriving DecidableEq

/-- The line that a file receives. -/
def fileLine (level : Int) (logger message : String) : String :=
  timeMark ++ " " ++ levelName level ++ " [" ++ componentOf logger ++ "] " ++ logger ++ ":0 " ++ message
    ++ "\n"

namespace Output

/-- Passes a record to one handler. -/
def handle (level : Int) (logger message : String) (o : Output) (h : Handler) : Output :=
  if level < h.level then o
  else
    match h with
    | .console _ => { o with console := o.console ++ [consoleLine level (componentOf logger) message] }
    | .file _ p => { o with files := o.files.append p (fileLine level logger message) }

/-- Passes a record to every handler, unless it is below the level in force. Only levels above zero are
passed on at all. -/
def emit (o : Output) (level : Int) (logger message : String) : Output :=
  if level ≤ 0 ∨ level < levelInForce o.level then o
  else o.handlers.foldl (handle level logger message) o

/-- Sets the console's level and opens the log file, if there is to be one. The file receives records of
every level. A file that cannot be opened is only warned of, unless its path is no path at all. -/
def configure (o : Output) (level : Int) (file : String) : Except OpenFault Output :=
  let plain : Output := { o with level, handlers := [.console level] }
  let path := Path.ofText file
  if file == "" then .ok plain
  else
    match o.files.opened path with
    | (files, none) =>
        .ok { plain with level := debug, handlers := [.console level, .file debug path.place], files }
    | (files, some e) =>
        if e.trouble = .nullCharacter then .error e
        else
          .ok ({ plain with files }.emit warning rootName
            ("Could not open log file '" ++ path.text ++ "': " ++ e.message))

/-- Configures logging as settings say where no level or no file is given. -/
def configureFrom (o : Output) (settings : LogSettings) (level : Option Int) (file : Option String) :
    Except OpenFault Output :=
  o.configure (level.getD (levelOfName settings.level)) (file.getD (settings.file.getD ""))

/-- Logging at the start: a console at the standard level, and a directory with some empty files. -/
def initial (files : List String) : Output :=
  ⟨info, [.console info], [], ⟨[], files.map fun name => ([name], "")⟩⟩

end Output

end SchemaDesign.Log
