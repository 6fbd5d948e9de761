import SchemaDesign.Export.Drizzle
import SchemaDesign.Export.Jpa
import SchemaDesign.Export.Prisma
import SchemaDesign.Export.Sql
import SchemaDesign.Log.Record
import SchemaDesign.Settings
import SchemaDesign.Text.CaseFold

/-! The export formats, the header that stamps an export, and the whole exported text. -/
namespace SchemaDesign.Export

inductive Format where
  | sql | drizzle | spring | prisma
deriving DecidableEq

/-- A text that names no format, as messages quote it. -/
structure UnknownFormat where
  quoted : String
deriving DecidableEq

namespace Format

def all : List Format := [sql, drizzle, spring, prisma]

def value : Format → String
  | sql => "SQL"
  | drizzle => "Drizzle"
  | spring => "Spring"
  | prisma => "Prisma"

/-- The name in capitals. -/
def constant : Format → String
  | sql => "SQL"
  | drizzle => "DRIZZLE"
  | spring => "SPRING"
  | prisma => "PRISMA"

def commentMark : Format → String
  | sql => "--"
  | _ => "//"

def folded (s : String) : List Char := Text.caseFold s.toList

/-- The format of a name, case and white space around it apart. -/
def ofText? (s : String) : Option Format :=
  let wanted := Text.caseFold (Text.trim s.toList)
  all.find? fun f => wanted == folded f.value || wanted == folded f.constant

end Format

def UnknownFormat.message (e : UnknownFormat) : String :=
  "Unknown export format " ++ e.quoted ++ "; expected one of "
    ++ Text.joined ", " (Format.all.map (·.value)) ++ "."

variable {τ : Type} [BEq τ] [Label τ]

/-- What code depends on besides the tables. The length of a `varchar` stands as it is written. -/
structure Options where
  javaPackage : String
  prismaProvider : String
  varcharLength : String
deriving DecidableEq

/-- The options that settings ask for where nothing else is asked for. -/
def options (settings : ExportSettings) (package provider length : Option String) : Options :=
  { javaPackage := package.getD settings.javaPackage
    prismaProvider := provider.getD settings.prismaProvider
    varcharLength := length.getD (Text.writeInt settings.varcharLength) }

def codeWith (o : Options) (f : Format) (tables : List (Table τ)) : String :=
  match f with
  | .sql => Sql.generate tables
  | .drizzle => Drizzle.generate o.varcharLength tables
  | .spring => Jpa.generate o.javaPackage tables
  | .prisma => Prisma.generate o.prismaProvider tables

/-- The code of all tables under the configured defaults. -/
def code (settings : ExportSettings) (f : Format) (tables : List (Table τ)) : String :=
  codeWith (options settings none none none) f tables

/-- Two comment lines and a blank one. -/
def header (settings : ExportSettings) (f : Format) (stamp : String) : String :=
  f.commentMark ++ " " ++ f.value ++ " Schema generated by " ++ settings.toolName ++ "\n"
    ++ f.commentMark ++ " Generated on " ++ stamp ++ "\n\n"

def schema (settings : ExportSettings) (f : Format) (stamp : String) (tables : List (Table τ)) :
    String :=
  header settings f stamp ++ code settings f tables

/-- What an export of some tables logs. -/
def record (f : Format) (count : Nat) : Log.Record :=
  ⟨Log.info, .exporter, "Exported " ++ Text.writeInt count ++ " table(s) as " ++ f.value ++ "."⟩

end SchemaDesign.Export
