import SchemaDesign.Text.Numeral
import SchemaDesign.Text.Quoted
import SchemaDesign.Text.UpperCase

/-! Settings, read from environment variables. -/
namespace SchemaDesign

structure ExportSettings where
  toolName : String
  javaPackage : String
  prismaProvider : String
  varcharLength : Int
deriving DecidableEq

structure LogSettings where
  level : String
  file : Option String
deriving DecidableEq

structure ServerSettings where
  host : String
  portNumber : Int
deriving DecidableEq

structure Settings where
  exports : ExportSettings
  logging : LogSettings
  server : ServerSettings
deriving DecidableEq

namespace Settings

def appName : String := "tabledraft"

def appVersion : String := "1.0.0"

def serverTitle : String := "tabledraft API"

/-- A variable that should hold an integer does not. -/
structure Fault where
  text : String
  cause : Text.NumeralFault
deriving DecidableEq

def Fault.message (f : Fault) : String := f.cause.message (Text.quoted f.text)

/-- An unset variable takes its default; one that is set to the empty text does not. -/
def valueOf (env : List (String × String)) (name absent : String) : String :=
  (env.lookup name).getD absent

def number (env : List (String × String)) (name absent : String) : Except Fault Int :=
  let text := valueOf env name absent
  (Text.readInt text.toList).mapError (Fault.mk text)

def load (env : List (String × String)) : Except Fault Settings := do
  let varcharLength ← number env "EXPORT_DEFAULT_VARCHAR_LENGTH" "255"
  let portNumber ← number env "API_PORT" "8000"
  return {
    exports := {
      toolName := valueOf env "EXPORT_TOOL_NAME" appName
      javaPackage := valueOf env "EXPORT_JAVA_PACKAGE" "com.example.model"
      prismaProvider := valueOf env "EXPORT_PRISMA_PROVIDER" "postgresql"
      varcharLength }
    logging := {
      level := String.ofList (Text.upper (valueOf env "LOG_LEVEL" "INFO").toList)
      file := env.lookup "LOG_FILE" }
    server := { host := valueOf env "API_HOST" "127.0.0.1", portNumber } }

end Settings

end SchemaDesign
