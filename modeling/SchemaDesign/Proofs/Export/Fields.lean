import SchemaDesign.Export.Prisma
import SchemaDesign.Proofs.Model.Relation

/-! The fields of a Prisma model as data: each by its name and what is declared of it, a relation or a back
reference together with the table at its other end. The lines of a model are these fields, written out. -/
namespace SchemaDesign.Export.Prisma

/-- A field of a model: its name, and the type and attributes that it is declared with. -/
structure Field where
  name : String
  declared : String
deriving DecidableEq

def Field.line (f : Field) : String := "  " ++ f.name ++ " " ++ f.declared

def scalarFields (t : Table String) : List Field :=
  t.columns.map fun c =>
    ⟨c.name, Text.joined " " ((fieldType c ++ if c.nullable then "?" else "") :: markers c)⟩

/-- The field of a column that leads into the table `d`. -/
def relationField (ts : List (Table String)) (t d : Table String) (c : Column String) : Field where
  name := (Assoc.get? c.name (t.relationFields ts)).getD ""
  declared := capitalizeFirst d.name ++ (if c.nullable then "?" else "")
    ++ " @relation(fields: [" ++ c.name ++ "], references: [" ++ c.references.columnName ++ "])"

/-- The relation fields, with the tables into which they lead. -/
def relations (ts : List (Table String)) (t : Table String) : List (Table String × Field) :=
  t.columns.filterMap fun c => (c.target? ts).map fun d => (d, relationField ts t d c)

/-- A unique column is at the other end of one row at most, any other of a list of rows. -/
def backField (e : Edge String) : Field where
  name := lowerFirst e.source.name
  declared := capitalizeFirst e.source.name ++ if e.column.unique then "?" else "[]"

/-- The back references, with the tables from which they come. -/
def backLinks (ts : List (Table String)) (t : Table String) : List (Table String × Field) :=
  (backReferences (edges ts) t.id).map fun e => (e.source, backField e)

def fields (ts : List (Table String)) (t : Table String) : List Field :=
  scalarFields t ++ (relations ts t).map (·.2) ++ (backLinks ts t).map (·.2)

def fieldNames (ts : List (Table String)) (t : Table String) : List String :=
  (fields ts t).map (·.name)

/-- The lines in front of the fields: the notes, if there are any, and the name. -/
def heading (t : Table String) : List String :=
  (if t.notes = "" then [] else ["// " ++ t.notes]) ++ ["model " ++ capitalizeFirst t.name ++ " \x7b"]

theorem joined_append_cons (a b : String) (rest : List String) :
    Text.joined " " ((a ++ b) :: rest) = a ++ Text.joined " " (b :: rest) := by
  cases rest with
  | nil => rfl
  | cons c rest => simp only [Text.joined, String.append_assoc]

theorem scalarField_line (c : Column String) :
    "  " ++ scalarField c = Field.line
      ⟨c.name, Text.joined " " ((fieldType c ++ if c.nullable then "?" else "") :: markers c)⟩ := by
  have hname : scalarField c =
      c.name ++ " " ++ Text.joined " " ((fieldType c ++ if c.nullable then "?" else "") :: markers c) := by
    rw [← joined_append_cons, ← String.append_assoc]
    rfl
  rw [hname, Field.line]
  simp only [String.append_assoc]

theorem relationField?_eq (ts : List (Table String)) (t : Table String) (c : Column String) :
    (relationField? ts (t.relationFields ts) c).map ("  " ++ ·) =
      (c.target? ts).map fun d => (relationField ts t d c).line := by
  unfold relationField?
  rw [Option.map_map]
  apply congrArg (Option.map · _)
  funext d
  simp only [Function.comp_apply, relationField, Field.line, Label.shown_string, String.append_assoc]

theorem backReferenceField_line (e : Edge String) : "  " ++ backReferenceField e = (backField e).line := by
  simp only [backReferenceField, backField, Field.line, Label.shown_string, String.append_assoc]

/-- A model is its heading, its fields one in a line, and a closing brace. -/
theorem modelLines_eq (ts : List (Table String)) (t : Table String) :
    modelLines ts (edges ts) t = heading t ++ (fields ts t).map Field.line ++ ["\x7d"] := by
  have hscalars : (t.columns.map scalarField).map ("  " ++ ·) = (scalarFields t).map Field.line := by
    rw [scalarFields, List.map_map, List.map_map]
    exact List.map_congr_left fun c _ => scalarField_line c
  have hrelations : (t.columns.filterMap (relationField? ts (t.relationFields ts))).map ("  " ++ ·) =
      ((relations ts t).map (·.2)).map Field.line := by
    simp only [relations, List.map_filterMap, relationField?_eq, Option.map_map]
    rfl
  have hback : ((backReferences (edges ts) t.id).map backReferenceField).map ("  " ++ ·) =
      ((backLinks ts t).map (·.2)).map Field.line := by
    rw [backLinks, List.map_map, List.map_map, List.map_map]
    exact List.map_congr_left fun e _ => backReferenceField_line e
  have hnotes : (if Label.isEmpty t.notes then [] else ["// " ++ Label.shown t.notes]) =
      if t.notes = "" then [] else ["// " ++ t.notes] := by simp
  unfold modelLines
  rw [List.map_append, List.map_append, hscalars, hrelations, hback, hnotes, fields, List.map_append,
    List.map_append]
  rfl

end SchemaDesign.Export.Prisma
