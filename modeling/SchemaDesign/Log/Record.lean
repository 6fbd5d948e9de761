import SchemaDesign.Text.Numeral

/-! Log records and the lines that handlers write for them. -/
namespace SchemaDesign.Log

/-- The named levels. Any other number is a level too. -/
def debug : Int := 10

def info : Int := 20

def warning : Int := 30

def error : Int := 40

def critical : Int := 50

/-- Names of levels as settings may give them. -/
def levelNames : List (String × Int) :=
  [("CRITICAL", critical), ("FATAL", critical), ("ERROR", error), ("WARNING", warning),
   ("WARN", warning), ("INFO", info), ("DEBUG", debug), ("NOTSET", 0)]

/-- The name that a line shows. -/
def levelName (level : Int) : String :=
  match levelNames.find? (·.2 == level) with
  | some (name, _) => name
  | none => "Level " ++ Text.writeInt level

/-- The level that a setting asks for; an unknown name asks for the standard one. -/
def levelOfName (name : String) : Int := (levelNames.lookup name).getD info

/-- The part of the program that a record comes from. -/
inductive Component where
  | parser | store | exporter | api
deriving DecidableEq

def Component.tag : Component → String
  | parser => "parser"
  | store => "store"
  | exporter => "export"
  | api => "api"

structure Record where
  level : Int
  component : Component
  message : String
deriving DecidableEq

/-- The place of the time in a line. -/
def timeMark : String := "<time>"

/-- At least eight characters. -/
def padded (s : String) : String := s ++ String.ofList (List.replicate (8 - s.length) ' ')

/-- The line that the console shows. -/
def consoleLine (level : Int) (component message : String) : String :=
  timeMark ++ " " ++ padded (levelName level) ++ " [" ++ component ++ "] " ++ message

def Record.line (r : Record) : String := consoleLine r.level r.component.tag r.message

/-- The level in force where a logger is set to one. A logger that is set to zero has none of its own and
takes the one for warnings. -/
def levelInForce (level : Int) : Int := if level = 0 then warning else level

/-- The lines of the records that reach the level in force. -/
def lines (level : Int) (records : List Record) : List String :=
  (records.filter (levelInForce level ≤ ·.level)).map (·.line)

end SchemaDesign.Log
