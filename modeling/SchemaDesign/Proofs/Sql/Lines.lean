import SchemaDesign.Export.Sql
import SchemaDesign.Proofs.Ddl.Cut

/-! Canonical SQL as characters: statements whose bodies are lines, one for each column, one for the
primary key, and one for each foreign key that resolves. -/
namespace SchemaDesign.Export.Sql
open Ddl (indent layLines statementText)

def lengthChars (c : Column String) : List Char :=
  match c.length? with
  | some n => '(' :: ((Text.writeInt n).toList ++ [')'])
  | none => []

def flagChars (notNull unique : Bool) : List Char :=
  (if notNull then " NOT NULL".toList else []) ++ (if unique then " UNIQUE".toList else [])

/-- What follows the type of a column. -/
def columnTail (c : Column String) : List Char :=
  lengthChars c ++ flagChars (!c.nullable) (c.unique && !c.primaryKey)

def columnLine (c : Column String) : List Char :=
  c.name.toList ++ ' ' :: (c.baseType.toList ++ columnTail c)

def keyLead : List Char := "PRIMARY KEY".toList

def linkLead : List Char := "FOREIGN KEY".toList

def targetLead : List Char := "REFERENCES ".toList

def keyLine (key : List Char) : List Char := keyLead ++ ' ' :: '(' :: (key ++ [')'])

def linkLine (column table target : List Char) : List Char :=
  linkLead ++ ' ' :: '(' :: (column ++ ')' :: ' ' ::
    (targetLead ++ (table ++ '(' :: (target ++ [')']))))

def keyLines (t : Table String) : List (List Char) :=
  match t.primaryKey with
  | some key => if key == "" then [] else [keyLine key.toList]
  | none => []

def linkLine? (ts : List (Table String)) (c : Column String) : Option (List Char) :=
  (c.target? ts).map fun d => linkLine c.name.toList d.name.toList c.references.columnName.toList

/-- The lines of a statement without the blanks before them. -/
def lines (ts : List (Table String)) (t : Table String) : List (List Char) :=
  t.columns.map columnLine ++ keyLines t ++ t.columns.filterMap (linkLine? ts)

def bodyChars (ts : List (Table String)) (t : Table String) : List Char :=
  '\n' :: (layLines (lines ts t) ++ ['\n'])

/-- The name and the body of each statement. -/
def printed (ts : List (Table String)) : List (List Char × List Char) :=
  ts.map fun t => (t.name.toList, bodyChars ts t)

theorem toList_typeClause (c : Column String) :
    (typeClause c).toList = c.baseType.toList ++ lengthChars c := by
  unfold typeClause lengthChars
  cases c.length? with
  | none => simp
  | some n => simp

theorem toList_columnClause (c : Column String) :
    (columnClause c).toList = indent ++ columnLine c := by
  unfold columnClause columnLine columnTail flagChars
  cases c.nullable <;> cases c.unique <;> cases c.primaryKey <;> simp [toList_typeClause, indent]

theorem toList_primaryKeyClauses (t : Table String) :
    (primaryKeyClauses t).map String.toList = (keyLines t).map (indent ++ ·) := by
  have hopen : "  PRIMARY KEY (".toList = indent ++ (keyLead ++ [' ', '(']) := rfl
  have hclose : ")".toList = [')'] := rfl
  unfold primaryKeyClauses keyLines
  cases t.primaryKey with
  | none => rfl
  | some key =>
    simp only [Label.isEmpty_string, Label.shown_string]
    split
    · rfl
    · simp only [List.map_cons, List.map_nil, String.toList_append, hopen, hclose, keyLine,
        List.append_assoc, List.cons_append, List.nil_append]

theorem toList_foreignKeyClause? (ts : List (Table String)) (c : Column String) :
    (foreignKeyClause? ts c).map String.toList = (linkLine? ts c).map (indent ++ ·) := by
  have hopen : "  FOREIGN KEY (".toList = indent ++ (linkLead ++ [' ', '(']) := rfl
  have hrefs : ") REFERENCES ".toList = ')' :: ' ' :: targetLead := rfl
  have hin : "(".toList = ['('] := rfl
  have hclose : ")".toList = [')'] := rfl
  unfold foreignKeyClause? linkLine?
  cases c.target? ts with
  | none => rfl
  | some d =>
    simp only [Option.map_some, String.toList_append, hopen, hrefs, hin, hclose, linkLine,
      Label.shown_string, List.append_assoc, List.cons_append, List.nil_append]

theorem toList_clauses (ts : List (Table String)) (t : Table String) :
    (clauses ts t).map String.toList = (lines ts t).map (indent ++ ·) := by
  have hcolumns : t.columns.map (String.toList ∘ columnClause) =
      t.columns.map ((indent ++ ·) ∘ columnLine) :=
    List.map_congr_left fun c _ => toList_columnClause c
  have hlinks : (fun c => (foreignKeyClause? ts c).map String.toList) =
      fun c => (linkLine? ts c).map (indent ++ ·) :=
    funext (toList_foreignKeyClause? ts)
  simp only [clauses, lines, List.map_append, toList_primaryKeyClauses, List.map_map,
    List.map_filterMap, hcolumns, hlinks]

theorem toList_joined {ss : List String} {ls : List (List Char)}
    (h : ss.map String.toList = ls.map (indent ++ ·)) :
    (Text.joined ",\n" ss).toList = layLines ls := by
  induction ss generalizing ls with
  | nil =>
    cases ls with
    | nil => rfl
    | cons l ls => simp at h
  | cons s ss ih =>
    cases ls with
    | nil => simp at h
    | cons l ls =>
      rw [List.map_cons, List.map_cons, List.cons.injEq] at h
      obtain ⟨hs, h⟩ := h
      have ih := ih h
      cases ss with
      | nil =>
        cases ls with
        | nil => exact hs
        | cons m ls => simp at h
      | cons r ss =>
        cases ls with
        | nil => simp at h
        | cons m ls =>
          simp only [Text.joined, String.toList_append, hs, ih, layLines, indent,
            List.append_assoc]
          rfl

theorem toList_createTable (ts : List (Table String)) (t : Table String) :
    (createTable ts t).toList = statementText (t.name.toList, bodyChars ts t) := by
  have hopen : "CREATE TABLE ".toList = Ddl.opening := rfl
  have hbody : " (\n".toList = [' ', '(', '\n'] := rfl
  have hclose : "\n);\n\n".toList = '\n' :: ')' :: Ddl.ending := rfl
  unfold createTable
  simp only [String.toList_append, toList_joined (toList_clauses ts t), statementText,
    bodyChars, Label.shown_string, hopen, hbody, hclose, List.append_assoc, List.cons_append,
    List.nil_append]

theorem toList_generate (ts : List (Table String)) :
    (generate ts).toList = (printed ts).flatMap statementText := by
  have hconcat : ∀ ss : List String, (Text.concat ss).toList = ss.flatMap String.toList := by
    intro ss
    induction ss with
    | nil => rfl
    | cons s ss ih => simp [Text.concat, ih]
  rw [generate, hconcat, printed, List.flatMap_map, List.flatMap_map]
  exact congrArg (ts.flatMap ·) (funext (toList_createTable ts))

end SchemaDesign.Export.Sql
