import SchemaDesign.Export.Drizzle
import SchemaDesign.Proofs.Export.BackReference
import SchemaDesign.Proofs.Export.Extension
import SchemaDesign.Proofs.Text.Lines

/-! The notes of tables in generated code. Two kinds of code show them, each in one line that begins as a
comment; the others do not depend on them. What stands behind a line break in the notes begins a line of
its own, and is a comment only if it is written as one. -/
namespace SchemaDesign

/-! Lines that are not comments -/

namespace Text

variable {s r : String}

/-- Whether the first characters of a line that are not blank begin a comment. -/
def isCommentLine (line : String) : Bool := ['/', '/'].isPrefixOf (trimStart line.toList)

/-- The lines of a text that are not comments. -/
def codeLines (s : String) : List String := (lines s).filter (!isCommentLine ·)

/-- The text without its comment lines. -/
def withoutCommentLines (s : String) : String := joined "\n" (codeLines s)

theorem codeLines_append_newline (s r : String) :
    codeLines (s ++ "\n" ++ r) = codeLines s ++ codeLines r := by
  rw [codeLines, lines_append_newline, List.filter_append]
  rfl

theorem codeLines_empty : codeLines "" = [""] := rfl

theorem codeLines_joined {ss : List String} (hne : ss ≠ []) :
    codeLines (joined "\n" ss) = ss.flatMap codeLines := by
  rw [codeLines, lines_joined hne, List.filter_flatMap]
  rfl

/-- A text that keeps a line is told by the lines that it keeps. -/
theorem lines_withoutCommentLines (h : codeLines s ≠ []) : lines (withoutCommentLines s) = codeLines s :=
  (lines_joined h).trans (flatMap_lines fun _ hmem => oneLine_of_mem_lines (List.mem_filter.1 hmem).1)

theorem withoutCommentLines_inj (hs : codeLines s ≠ []) (hr : codeLines r ≠ []) :
    withoutCommentLines s = withoutCommentLines r ↔ codeLines s = codeLines r := by
  refine ⟨fun h => ?_, fun h => by rw [withoutCommentLines, h]; rfl⟩
  rw [← lines_withoutCommentLines hs, h, lines_withoutCommentLines hr]

end Text

open Text

/-! Notes -/

/-- Whether notes stay in the comment that they begin in: each of their further lines is one itself. -/
def OnlyComments (notes : String) : Prop := ∀ line ∈ (lines notes).tail, isCommentLine line = true

instance (notes : String) : Decidable (OnlyComments notes) :=
  inferInstanceAs (Decidable (∀ line ∈ (lines notes).tail, isCommentLine line = true))

/-- The line that shows notes, if there are any. -/
def noteLines (lead notes : String) : List String := if notes = "" then [] else [lead ++ notes]

theorem isCommentLine_append {lead : String} (h : isCommentLine lead = true) (s : String) :
    isCommentLine (lead ++ s) = true := by
  have hprefix := List.isPrefixOf_iff_prefix.1 h
  have hne : (trimStart lead.toList).isEmpty = false := by
    cases hlead : trimStart lead.toList with
    | nil => simp [hlead] at hprefix
    | cons c cs => rfl
  refine List.isPrefixOf_iff_prefix.2 ?_
  unfold trimStart at hprefix hne ⊢
  rw [String.toList_append, List.dropWhile_append, hne]
  exact hprefix.trans (List.prefix_append _ _)

theorem codeLines_noteLines {lead : String} (hlead : isCommentLine lead = true) (hline : OneLine lead)
    (notes : String) : (noteLines lead notes).flatMap codeLines = [] ↔ OnlyComments notes := by
  unfold noteLines OnlyComments
  split
  · next h => simp [h, lines_of_oneLine (s := "") (by decide)]
  · obtain ⟨first, rest, hlines⟩ := List.exists_cons_of_ne_nil (lines_ne_nil notes)
    rw [List.flatMap_singleton, codeLines, lines_append hline, hlines, List.modifyHead_cons,
      List.filter_cons_of_neg (by simp [isCommentLine_append hlead])]
    simp [List.filter_eq_nil_iff]

/-! Tables without notes -/

def Table.clearNotes (t : Table String) : Table String := { t with notes := "" }

/-- The tables with all notes taken away. -/
def withoutNotes (ts : List (Table String)) : List (Table String) := ts.map Table.clearNotes

section WithoutNotes

variable (ts : List (Table String)) (t : Table String)

theorem map_withoutNotes {β : Type} {f g : Table String → β} (h : ∀ t, f t.clearNotes = g t) :
    (withoutNotes ts).map f = ts.map g := by
  rw [withoutNotes, List.map_map]
  exact List.map_congr_left fun t _ => h t

theorem flatMap_withoutNotes {β : Type} (f : Table String → List β) :
    (withoutNotes ts).flatMap f = ts.flatMap fun t => f t.clearNotes :=
  List.flatMap_map ..

theorem withId?_withoutNotes (i : String) :
    Table.withId? (withoutNotes ts) i = (Table.withId? ts i).map Table.clearNotes := by
  simp [Table.withId?, List.findRev?_eq_find?_reverse, withoutNotes, ← List.map_reverse, List.find?_map,
    Function.comp_def, Table.clearNotes]

theorem target?_withoutNotes (c : Column String) :
    c.target? (withoutNotes ts) = (c.target? ts).map Table.clearNotes := by
  unfold Column.target?
  split
  · rw [withId?_withoutNotes, Option.filter_map]
    rfl
  · rfl

theorem relationFields_withoutNotes :
    t.clearNotes.relationFields (withoutNotes ts) = t.relationFields ts := by
  have htargets : t.clearNotes.relationTargets (withoutNotes ts) =
      (t.relationTargets ts).map (Prod.map id Table.clearNotes) := by
    simp only [Table.relationTargets, Table.clearNotes, target?_withoutNotes]
    refine @List.foldl_hom _ _ _ (List.map (Prod.map id Table.clearNotes)) _ _ t.columns [] fun found c => ?_
    cases c.target? ts with
    | none => rfl
    | some d => exact Assoc.put_map Table.clearNotes
  simp only [Table.relationFields, htargets, List.map_map, List.countP_map]
  rfl

end WithoutNotes

/-! Code in blocks -/

/-- Code that is written in one block for each table, with a blank line behind each. -/
theorem codeLines_blocks (front : String) {block : Table String → List String} (hne : ∀ t, block t ≠ [])
    (ts : List (Table String)) :
    codeLines (front ++ "\n" ++ concat (ts.map fun t => joined "\n" (block t) ++ "\n\n")) =
      codeLines front ++ ts.flatMap (fun t => (block t).flatMap codeLines ++ [""]) ++ [""] := by
  induction ts generalizing front with
  | nil =>
    rw [List.map_nil, concat, codeLines_append_newline, codeLines_empty, List.flatMap_nil,
      List.append_nil]
  | cons t ts ih =>
    have hfront : front ++ "\n" ++ concat ((t :: ts).map fun t => joined "\n" (block t) ++ "\n\n") =
        front ++ "\n" ++ joined "\n" (block t) ++ "\n" ++ "" ++ "\n" ++
          concat (ts.map fun t => joined "\n" (block t) ++ "\n\n") := by
      have hbreaks : "\n\n" = "\n" ++ "\n" := rfl
      simp only [List.map_cons, concat, hbreaks, String.append_empty, String.append_assoc]
    rw [hfront, ih, codeLines_append_newline, codeLines_append_newline, codeLines_joined (hne t),
      codeLines_empty, List.flatMap_cons]
    simp only [List.append_assoc]

/-- Code with one block for each table, in which one line shows the notes and nothing else depends on
them. -/
structure Annotated (code : List (Table String) → String) where
  front : String
  lead : String
  before : List (Table String) → Table String → List String
  after : List (Table String) → Table String → List String
  code_eq : ∀ ts, code ts = front ++ "\n" ++ concat (ts.map fun t =>
    joined "\n" (before ts t ++ noteLines lead t.notes ++ after ts t) ++ "\n\n")
  lead_isComment : isCommentLine lead = true
  lead_oneLine : OneLine lead
  after_ne_nil : ∀ ts t, after ts t ≠ []
  before_clearNotes : ∀ ts t, before (withoutNotes ts) t.clearNotes = before ts t
  after_clearNotes : ∀ ts t, after (withoutNotes ts) t.clearNotes = after ts t

namespace Annotated

variable {code : List (Table String) → String} (a : Annotated code) (ts : List (Table String))

theorem codeLines_code : codeLines (code ts) = codeLines a.front ++ ts.flatMap (fun t =>
    (a.before ts t).flatMap codeLines ++ (noteLines a.lead t.notes).flatMap codeLines ++
      ((a.after ts t).flatMap codeLines ++ [""])) ++ [""] := by
  have hne : ∀ t, a.before ts t ++ noteLines a.lead t.notes ++ a.after ts t ≠ [] :=
    fun t => List.append_ne_nil_of_right_ne_nil _ (a.after_ne_nil ts t)
  rw [a.code_eq, codeLines_blocks a.front hne]
  simp only [List.flatMap_append, List.append_assoc]

theorem codeLines_code_withoutNotes : codeLines (code (withoutNotes ts)) =
    codeLines a.front ++ ts.flatMap (fun t =>
      (a.before ts t).flatMap codeLines ++ ((a.after ts t).flatMap codeLines ++ [""])) ++ [""] := by
  have hnotes : ∀ t : Table String, noteLines a.lead t.clearNotes.notes = [] := fun _ => rfl
  simp only [a.codeLines_code, flatMap_withoutNotes, a.before_clearNotes, a.after_clearNotes, hnotes,
    List.flatMap_nil, List.append_nil]

include a in
/-- Past its comment lines such code tells nothing of the notes exactly if they stay in their comments. -/
theorem withoutCommentLines_iff :
    withoutCommentLines (code ts) = withoutCommentLines (code (withoutNotes ts)) ↔
      ∀ t ∈ ts, OnlyComments t.notes := by
  have hkept : ∀ us, codeLines (code us) ≠ [] := by
    intro us
    rw [a.codeLines_code]
    exact List.concat_ne_nil _ _
  rw [withoutCommentLines_inj (hkept _) (hkept _), a.codeLines_code, a.codeLines_code_withoutNotes,
    List.append_cancel_right_eq, List.append_cancel_left_eq, flatMap_insert_iff]
  simp only [codeLines_noteLines a.lead_isComment a.lead_oneLine]

end Annotated

namespace Export

variable (ts : List (Table String)) (t : Table String)

namespace Sql

theorem createTable_withoutNotes :
    createTable (withoutNotes ts) t.clearNotes = createTable ts t := by
  have hkeys : foreignKeyClause? (withoutNotes ts) = foreignKeyClause? ts := by
    funext c
    rw [foreignKeyClause?, target?_withoutNotes, Option.map_map]
    rfl
  unfold createTable clauses
  rw [hkeys]
  rfl

theorem generate_withoutNotes : generate (withoutNotes ts) = generate ts := by
  rw [generate, map_withoutNotes ts (createTable_withoutNotes ts)]
  rfl

end Sql

namespace Drizzle

theorem tableBlock_withoutNotes (length : String) :
    tableBlock (withoutNotes ts) length t.clearNotes = tableBlock ts length t := by
  have hreference : referenceCall (withoutNotes ts) = referenceCall ts := by
    funext c
    unfold referenceCall
    rw [target?_withoutNotes]
    cases c.target? ts <;> rfl
  have hline : columnLine (withoutNotes ts) length = columnLine ts length := by
    funext c
    rw [columnLine, hreference]
    rfl
  unfold tableBlock
  rw [hline]
  rfl

theorem generate_withoutNotes (length : String) : generate length (withoutNotes ts) = generate length ts := by
  have huses : usesBuilder (withoutNotes ts) = usesBuilder ts := by
    funext b
    simp only [usesBuilder, withoutNotes, List.any_map]
    rfl
  rw [generate, huses, map_withoutNotes ts fun t => tableBlock_withoutNotes ts t length]
  rfl

end Drizzle

namespace Jpa

/-- The lines of an entity before its notes. -/
def linesBefore : List String :=
  ["@Entity",
    "@Table(name = \"" ++ t.name ++ "\")",
    "@Data",
    "public class " ++ capitalizeFirst t.name ++ " \x7b",
    ""]
    ++ identityField t ++ t.columns.flatMap (columnField ts (t.relationFields ts))

theorem entityLines_eq :
    entityLines ts t = linesBefore ts t ++ noteLines "    // " t.notes ++ ["\x7d"] := by
  simp [entityLines, linesBefore, noteLines]

theorem linesBefore_withoutNotes : linesBefore (withoutNotes ts) t.clearNotes = linesBefore ts t := by
  have hfield : columnField (withoutNotes ts) = columnField ts := by
    funext relations c
    unfold columnField declaration
    rw [target?_withoutNotes, Option.isSome_map]
    cases c.target? ts <;> rfl
  unfold linesBefore
  rw [hfield, relationFields_withoutNotes]
  rfl

def annotated (package : String) : Annotated (generate package) where
  front := "package " ++ package ++ ";\n\nimport javax.persistence.*;\nimport lombok.Data;\n"
  lead := "    // "
  before := linesBefore
  after _ _ := ["\x7d"]
  code_eq ts := by
    have hend : ";\n\nimport javax.persistence.*;\nimport lombok.Data;\n\n" =
        ";\n\nimport javax.persistence.*;\nimport lombok.Data;\n" ++ "\n" := by decide +kernel
    have hentity : entity ts = fun t => joined "\n"
        (linesBefore ts t ++ noteLines "    // " t.notes ++ ["\x7d"]) ++ "\n\n" := by
      funext t
      rw [entity, entityLines_eq]
    rw [generate, hentity, hend, ← String.append_assoc]
  lead_isComment := by decide
  lead_oneLine := by decide
  after_ne_nil _ _ := List.cons_ne_nil _ _
  before_clearNotes := linesBefore_withoutNotes
  after_clearNotes _ _ := rfl

end Jpa

namespace Prisma

def Edge.clearNotes (e : Edge String) : Edge String := ⟨e.source.clearNotes, e.column⟩

theorem edges_withoutNotes :
    edges (withoutNotes ts) = (edges ts).map (Prod.map id Edge.clearNotes) := by
  unfold edges
  rw [flatMap_withoutNotes, List.map_flatMap]
  refine congrArg (List.flatMap · ts) (funext fun t => ?_)
  rw [List.map_filterMap]
  refine List.filterMap_congr fun c _ => ?_
  rw [target?_withoutNotes]
  cases c.target? ts with
  | none => rfl
  | some d =>
    have hid : (d.clearNotes.id == t.clearNotes.id) = (d.id == t.id) := rfl
    simp only [Option.map_some, hid]
    split <;> rfl

theorem backReferences_clearNotes (links : List (String × Edge String)) (i : String) :
    backReferences (links.map (Prod.map id Edge.clearNotes)) i =
      (backReferences links i).map Edge.clearNotes := by
  have hfilter : (links.map (Prod.map id Edge.clearNotes)).filter (·.1 == i) =
      (links.filter (·.1 == i)).map (Prod.map id Edge.clearNotes) := by
    rw [List.filter_map]
    rfl
  unfold backReferences
  rw [hfilter, List.foldl_map]
  refine @List.foldl_hom _ _ _ (List.map Edge.clearNotes) _ _ (links.filter (·.1 == i)) [] fun found e => ?_
  have hany : (found.map Edge.clearNotes).any (·.source.id == e.2.clearNotes.source.id) =
      found.any (·.source.id == e.2.source.id) := List.any_map
  simp only [Prod.map, hany]
  split
  · rfl
  · rw [List.map_append]
    rfl

theorem fields_withoutNotes : fields (withoutNotes ts) t.clearNotes = fields ts t := by
  have hrelations : (relations (withoutNotes ts) t.clearNotes).map (·.2) = (relations ts t).map (·.2) := by
    have hfield (d : Table String) (c : Column String) :
        relationField (withoutNotes ts) t.clearNotes d.clearNotes c = relationField ts t d c := by
      rw [relationField, relationFields_withoutNotes]
      rfl
    simp only [relations, List.map_filterMap, target?_withoutNotes, Option.map_map, Function.comp_def,
      hfield]
    rfl
  have hback : (backLinks (withoutNotes ts) t.clearNotes).map (·.2) = (backLinks ts t).map (·.2) := by
    have hedges : backReferences (edges (withoutNotes ts)) t.clearNotes.id =
        (backReferences (edges ts) t.id).map Edge.clearNotes := by
      rw [edges_withoutNotes]
      exact backReferences_clearNotes (edges ts) t.id
    rw [backLinks, hedges, List.map_map, List.map_map, backLinks, List.map_map]
    rfl
  rw [fields, hrelations, hback]
  rfl

def annotated (provider : String) : Annotated (generate provider) where
  front := "generator client \x7b\n  provider = \"prisma-client-js\"\n\x7d\n\n"
    ++ "datasource db \x7b\n  provider = \"" ++ provider ++ "\"\n"
    ++ "  url      = env(\"DATABASE_URL\")\n\x7d\n"
  lead := "// "
  before _ _ := []
  after ts t := ("model " ++ capitalizeFirst t.name ++ " \x7b") :: ((fields ts t).map Field.line ++ ["\x7d"])
  code_eq ts := by
    have hend : preamble provider = "generator client \x7b\n  provider = \"prisma-client-js\"\n\x7d\n\n"
        ++ "datasource db \x7b\n  provider = \"" ++ provider ++ "\"\n"
        ++ "  url      = env(\"DATABASE_URL\")\n\x7d\n" ++ "\n" := by
      have hlast : "  url      = env(\"DATABASE_URL\")\n\x7d\n\n" =
          "  url      = env(\"DATABASE_URL\")\n\x7d\n" ++ "\n" := by decide +kernel
      unfold preamble
      exact (congrArg (_ ++ ·) hlast).trans (String.append_assoc ..).symm
    have hmodel : modelBlock ts (edges ts) = fun t => joined "\n" ([] ++ noteLines "// " t.notes ++
        ("model " ++ capitalizeFirst t.name ++ " \x7b") :: ((fields ts t).map Field.line ++ ["\x7d"])) ++
          "\n\n" := by
      funext t
      rw [modelBlock, modelLines_eq, heading]
      simp [noteLines]
    rw [generate, hmodel, hend]
  lead_isComment := by decide
  lead_oneLine := by decide
  after_ne_nil _ _ := List.cons_ne_nil _ _
  before_clearNotes _ _ := rfl
  after_clearNotes ts t := by
    rw [fields_withoutNotes]
    rfl

end Prisma

/-- What generated code shows of notes. Two kinds of code do not depend on them. In the two others the lines
that are no comments stay the same without notes exactly if each further line of all notes is a comment
itself, in particular if no notes break the line. -/
theorem code_withoutNotes :
    Sql.generate ts = Sql.generate (withoutNotes ts) ∧
    (∀ length, Drizzle.generate length ts = Drizzle.generate length (withoutNotes ts)) ∧
    (∀ package, withoutCommentLines (Jpa.generate package ts) =
      withoutCommentLines (Jpa.generate package (withoutNotes ts)) ↔ ∀ t ∈ ts, OnlyComments t.notes) ∧
    (∀ provider, withoutCommentLines (Prisma.generate provider ts) =
      withoutCommentLines (Prisma.generate provider (withoutNotes ts)) ↔ ∀ t ∈ ts, OnlyComments t.notes) :=
  ⟨(Sql.generate_withoutNotes ts).symm, fun length => (Drizzle.generate_withoutNotes ts length).symm,
    fun package => (Jpa.annotated package).withoutCommentLines_iff ts,
    fun provider => (Prisma.annotated provider).withoutCommentLines_iff ts⟩

/-- A table with notes in two lines, of which the second is no comment. -/
def remarkedTable : Table String :=
  ⟨"t", "users", "customers\nand staff", [⟨"id", "int", none, false, true, true, false, Reference.unset⟩]⟩

/-- The second line of the notes stands in the code, outside of all comments. -/
theorem not_withoutNotes_remarkedTable :
    ¬ OnlyComments remarkedTable.notes ∧
    "and staff" ∈ codeLines (Prisma.generate "postgresql" [remarkedTable]) ∧
    withoutCommentLines (Prisma.generate "postgresql" [remarkedTable]) ≠
      withoutCommentLines (Prisma.generate "postgresql" (withoutNotes [remarkedTable])) ∧
    withoutCommentLines (Jpa.generate "com.example" [remarkedTable]) ≠
      withoutCommentLines (Jpa.generate "com.example" (withoutNotes [remarkedTable])) := by
  have hnotes : ¬ OnlyComments remarkedTable.notes := by decide
  have hsome : ¬ ∀ t ∈ [remarkedTable], OnlyComments t.notes := fun h => hnotes (h _ List.mem_cons_self)
  have hstaff : "and staff" ∈ (noteLines "// " remarkedTable.notes).flatMap codeLines := by decide
  refine ⟨hnotes, ?_, mt ((Prisma.annotated _).withoutCommentLines_iff _).1 hsome,
    mt ((Jpa.annotated _).withoutCommentLines_iff _).1 hsome⟩
  rw [(Prisma.annotated _).codeLines_code, List.flatMap_singleton]
  exact List.mem_append_left _ (List.mem_append_right _ (List.mem_append_left _
    (List.mem_append_right _ hstaff)))

end Export

end SchemaDesign
