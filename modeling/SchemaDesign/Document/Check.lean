import SchemaDesign.Document.Fault
import SchemaDesign.Export.Format
import SchemaDesign.Store.Basic
import SchemaDesign.Validation

/-! The faults that an operation meets in an unchecked document. Each check follows the order in which the
operation comes to the labels, so that the fault it finds is the first one. A document without a fault
can be handed to the operation. -/
namespace SchemaDesign.Document

/-- Lists and objects cannot be keys. -/
def keyFault? (j : Json) : Option Fault :=
  match j.kind with
  | .arr | .obj => some (.notKey j.kind)
  | _ => none

/-- A type is trimmed before it is looked up. -/
def typeFault? (c : Column Json) : Option Fault :=
  if c.type.isTrue && c.type.kind ≠ .str then some (.noMember c.type.kind "strip") else none

/-- A keyword is compared in lower case, even where it is missing. -/
def keywordFault? (j : Json) : Option Fault :=
  if j.kind = .str then none else some (.noMember j.kind "lower")

/-- The case of the first letter is changed by `member`. -/
def letterFault? (member : String) (j : Json) : Option Fault :=
  match j.kind with
  | .str => none
  | .arr => some (.noMember .arr member)
  | .obj => some .notCut
  | kind => some (.notIndexable kind)

def capitalFault? (j : Json) : Option Fault := letterFault? "upper" j

/-- A name is matched as a text unless it is missing, and then kept as a key. -/
def columnNameFault? (j : Json) : Option Fault :=
  if j.isTrue && j.kind ≠ .str then some (.notText j.kind) else keyFault? j

def draftFault? (name : Json) (columns : List (Column Json)) : Option Fault :=
  if name.isTrue && name.kind ≠ .str then some (.noMember name.kind "strip")
  else columns.findSome? fun c => columnNameFault? c.name

/-- What writing a column in every target's types meets. -/
def columnFault? (c : Column Json) : Option Fault :=
  typeFault? c <|> keywordFault? c.type <|> capitalFault? c.name

/-- A primary key is looked up among the names of the columns. -/
def preferredFault? (preferred : Option Json) : Option Fault := preferred.bind keyFault?

def primaryKeyFault? (preferred : Option Json) (columns : List (Column Json)) : Option Fault :=
  (columns.findSome? fun c => keyFault? c.name) <|> preferredFault? preferred

/-- Tables are found by their ids. -/
def idsFault? (tables : List (Table Json)) : Option Fault := tables.findSome? fun t => keyFault? t.id

/-- The target of a foreign key is looked up by its id. -/
def targetFault? (c : Column Json) : Option Fault :=
  if c.foreignKey && c.references.isSet then keyFault? c.references.tableId else none

def targetsFault? (t : Table Json) : Option Fault := t.columns.findSome? targetFault?

def resolveFault? (tables : List (Table Json)) : Option Fault :=
  idsFault? tables <|> tables.findSome? targetsFault?

/-- A target that is found is kept under the column's name. -/
def keptTargetFault? (tables : List (Table Json)) (c : Column Json) : Option Fault :=
  targetFault? c <|> if (c.target? tables).isSome then keyFault? c.name else none

/-- The relation fields are named for their targets, then for the columns that share one. -/
def relationFault? (tables : List (Table Json)) (t : Table Json) : Option Fault :=
  let targets := t.relationTargets tables
  t.columns.findSome? (keptTargetFault? tables) <|>
    targets.findSome? fun entry =>
      letterFault? "lower" entry.2.name <|>
        if 1 < targets.countP fun other => other.2.id == entry.2.id then capitalFault? entry.1 else none

def relationsFault? (tables : List (Table Json)) : Option Fault :=
  idsFault? tables <|> tables.findSome? (relationFault? tables)

def sqlFault? (t : Table Json) : Option Fault :=
  t.columns.findSome? typeFault? <|> targetsFault? t

def drizzleFault? (t : Table Json) : Option Fault :=
  t.columns.findSome? fun c => typeFault? c <|> targetFault? c

def jpaFault? (tables : List (Table Json)) (t : Table Json) : Option Fault :=
  capitalFault? t.name <|> relationFault? tables t <|>
    t.columns.findSome? fun c =>
      (if c.primaryKey then typeFault? c else none) <|>
        match c.target? tables with
        | some d => capitalFault? d.name
        | none => typeFault? c

def prismaFault? (tables : List (Table Json)) (links : List (Json × Export.Prisma.Edge Json))
    (t : Table Json) : Option Fault :=
  capitalFault? t.name <|> t.columns.findSome? typeFault? <|> relationFault? tables t <|>
    (t.columns.findSome? fun c => (c.target? tables).bind fun d => capitalFault? d.name) <|>
    (Export.Prisma.backReferences links t.id).findSome? fun e => letterFault? "lower" e.source.name

def exportFault? (f : Export.Format) (tables : List (Table Json)) : Option Fault :=
  match f with
  | .sql => idsFault? tables <|> tables.findSome? sqlFault?
  | .drizzle => idsFault? tables <|> tables.findSome? drizzleFault?
  | .spring => idsFault? tables <|> tables.findSome? (jpaFault? tables)
  | .prisma =>
      resolveFault? tables <|> tables.findSome? (prismaFault? tables (Export.Prisma.edges tables))

inductive FormatFault where
  | fault (f : Fault)
  | unknown (e : Export.UnknownFormat)
deriving DecidableEq

/-- The format that a value names. -/
def readFormat (j : Json) : Except FormatFault Export.Format :=
  if j.isTrue && j.kind ≠ .str then .error (.fault (.noMember j.kind "strip"))
  else
    match Export.Format.ofText? (if j.isTrue then j.shown else "") with
    | some f => .ok f
    | none => .error (.unknown ⟨j.quoted⟩)

/-- The text of a value where DDL is due; one that is missing is the empty text. -/
def readDdl : Json → Except Fault String
  | .str s => .ok s
  | j => if j.isTrue then .error (.notText j.kind) else .ok ""

end SchemaDesign.Document
