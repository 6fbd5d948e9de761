import SchemaDesign.Export.Format
import SchemaDesign.Export.Stamp
import SchemaDesign.Proofs.Ddl.LineComment
import SchemaDesign.Proofs.Ddl.Squeeze.Statement
import SchemaDesign.Proofs.Text.Numeral

/-! The header of an SQL export and the reading of DDL. The header is two line comments and a blank line, of
which only blanks are left for the reader, and these go into the first gap of the text behind it. -/
namespace SchemaDesign.Ddl

open Text

variable {g s rest : List Char} {segs : List Segment} {sts : List (List Char × List Char)}
  {skipped : List Fragment}

/-! Blanks in front of a text -/

theorem Unheaded.blank_append (hg : ∀ c ∈ g, isBlank c = true) (h : Unheaded s rest) :
    Unheaded (g ++ s) rest := by
  induction g with
  | nil => exact h
  | cons c g ih =>
    obtain ⟨hc, hg⟩ := List.forall_mem_cons.1 hg
    exact unheaded_cons.2 ⟨header_of_blank hc, ih hg⟩

theorem gapFragments_blank_append (hg : ∀ c ∈ g, isBlank c = true) (s : List Char) :
    gapFragments (g ++ s) = gapFragments s := by
  have hmark : ';' ∉ g := fun hmem => absurd (hg ';' hmem) (by decide)
  have htrim : ∀ parts : List (List Char), (parts.modifyHead (g ++ ·)).map trim = parts.map trim := by
    intro parts
    cases parts with
    | nil => rfl
    | cons p parts => rw [List.modifyHead_cons, List.map_cons, List.map_cons, trim_blank_append hg]
  unfold gapFragments
  rw [← List.splitOn_eq_splitOnP, ← List.splitOn_eq_splitOnP, splitOn_append_of_notMem hmark, htrim]

theorem Reports.blank_append (hg : ∀ c ∈ g, isBlank c = true) (h : Reports s skipped) :
    Reports (g ++ s) skipped := by
  rw [reports_iff] at h ⊢
  rw [gapFragments_blank_append hg, h]

/-- Blanks go into the first gap of a walk, and nothing tells of them. -/
theorem Walk.blank_append (hg : ∀ c ∈ g, isBlank c = true) (h : Walk s segs sts skipped) :
    ∃ segs', Walk (g ++ s) segs' sts skipped := by
  cases h with
  | last hgap hreports => exact ⟨_, .last (hgap.blank_append hg) (hreports.blank_append hg)⟩
  | statement hgap hreports hhead hcloses honward =>
    have hwalk := Walk.statement (hgap.blank_append hg) (hreports.blank_append hg) hhead hcloses honward
    rw [List.append_assoc] at hwalk
    exact ⟨_, hwalk⟩
  | unclosed hgap hreports hhead hendless hresumes honward =>
    have hwalk := Walk.unclosed (hgap.blank_append hg) (hreports.blank_append hg) hhead hendless
      hresumes honward
    rw [List.append_assoc] at hwalk
    exact ⟨_, hwalk⟩

theorem statements_blank_append (hg : ∀ c ∈ g, isBlank c = true) (s : List Char) :
    statements (g ++ s) = statements s ∧ skippedStatements (g ++ s) = skippedStatements s := by
  obtain ⟨segs, hwalk⟩ := (walk_segments s).blank_append hg
  obtain ⟨-, hstatements, hskipped⟩ := hwalk.eq
  exact ⟨hstatements.symm, hskipped.symm⟩

/-- Texts that differ, without their comments, in blanks at the start are read alike. -/
theorem read_of_source_eq {x y : String} (hg : ∀ c ∈ g, isBlank c = true)
    (h : source x = g ++ source y) (ids : TableId.Supply) : read ids x = read ids y := by
  obtain ⟨hstatements, hskipped⟩ := statements_blank_append hg (source y)
  rw [read_eq, read_eq, h, hstatements, hskipped]

/-! Line comments in front of a text -/

theorem source_newline (x : String) : source ("\n" ++ x) = '\n' :: source x := by
  unfold source
  rw [String.toList_append]
  exact withoutComments_newline _

/-- Of a line comment in which no block comment begins only the line break is left. -/
theorem source_lineComment {c : String} (hc : '\n' ∉ c.toList) (hopen : ¬ Has '/' '*' c.toList)
    (x : String) : source ("--" ++ (c ++ ("\n" ++ x))) = '\n' :: source x := by
  have hclosed : LeavesOpen c.toList → ¬ Has '*' '/' x.toList :=
    fun h => absurd (has_withoutBlocks (by decide) (by decide) h) hopen
  rw [← source_newline]
  unfold source
  simp only [String.toList_append]
  exact withoutComments_lineComment hc hclosed

end SchemaDesign.Ddl

namespace SchemaDesign.Export

open Ddl Text

/-! The two lines of the header -/

theorem digitChar_plain (n : Nat) : Nat.digitChar n ≠ '/' ∧ Nat.digitChar n ≠ '\n' := by
  have hdigits : ∀ k < 16, Nat.digitChar k ≠ '/' ∧ Nat.digitChar k ≠ '\n' := by decide
  by_cases hn : n < 16
  · exact hdigits n hn
  · have hstar : Nat.digitChar n = '*' := by
      unfold Nat.digitChar
      iterate 16 rw [if_neg (by omega)]
    rw [hstar]
    decide

theorem twoDigits_plain (n : Nat) : ∀ c ∈ (Stamp.twoDigits n).toList, c ≠ '/' ∧ c ≠ '\n' := by
  rw [Stamp.twoDigits, String.toList_ofList]
  simp only [List.forall_mem_cons]
  exact ⟨digitChar_plain _, digitChar_plain _, List.forall_mem_nil _⟩

/-- A point in time is written on one line and without slashes. -/
theorem stamp_plain (t : Stamp) : ∀ c ∈ t.write.toList, c ≠ '/' ∧ c ≠ '\n' := by
  have hyear : ∀ c ∈ (writeInt t.year).toList, c ≠ '/' ∧ c ≠ '\n' := by
    intro c hc
    have hdecimal := decimal_isDecimal t.year c (by simpa [writeInt] using hc)
    constructor <;> rintro rfl <;> exact absurd hdecimal (by decide)
  have hmarks : ∀ m ∈ ["-", " ", ":"], ∀ c ∈ m.toList, c ≠ '/' ∧ c ≠ '\n' := by decide
  unfold Stamp.write
  simp only [String.toList_append, List.forall_mem_append]
  simp only [List.forall_mem_cons] at hmarks
  obtain ⟨hdash, hspace, hcolon, -⟩ := hmarks
  exact ⟨⟨⟨⟨⟨⟨⟨⟨⟨⟨hyear, hdash⟩, twoDigits_plain _⟩, hdash⟩, twoDigits_plain _⟩, hspace⟩,
    twoDigits_plain _⟩, hcolon⟩, twoDigits_plain _⟩, hcolon⟩, twoDigits_plain _⟩

variable {τ : Type} [BEq τ] [Label τ] {settings : ExportSettings}

/-- Without comments nothing is left of the header but its line breaks. -/
theorem source_header (hline : '\n' ∉ settings.toolName.toList)
    (hopen : ¬ Has '/' '*' settings.toolName.toList) (stamp : Stamp) (x : String) :
    source (header settings .sql stamp.write ++ x) = "\n\n\n".toList ++ source x := by
  have htool : '\n' ∉ (" SQL Schema generated by " ++ settings.toolName).toList ∧
      ¬ Has '/' '*' (" SQL Schema generated by " ++ settings.toolName).toList := by
    rw [String.toList_append]
    have hsplit : " SQL Schema generated by ".toList = " SQL Schema generated by".toList ++ [' '] := rfl
    refine ⟨?_, ?_⟩
    · rw [List.mem_append, not_or]
      exact ⟨by decide, hline⟩
    · rw [hsplit, List.append_assoc, List.singleton_append, has_append_cons (by decide) (by decide),
        not_or]
      exact ⟨by decide, hopen⟩
  have hstamp : '\n' ∉ (" Generated on " ++ stamp.write).toList ∧
      ¬ Has '/' '*' (" Generated on " ++ stamp.write).toList := by
    have hplain : ∀ c ∈ (" Generated on " ++ stamp.write).toList, c ≠ '/' ∧ c ≠ '\n' := by
      rw [String.toList_append, List.forall_mem_append]
      exact ⟨by decide, stamp_plain stamp⟩
    exact ⟨fun h => (hplain _ h).2 rfl, not_has_of_not_mem fun h => (hplain _ h).1 rfl⟩
  have hheader : header settings .sql stamp.write ++ x =
      "--" ++ ((" SQL Schema generated by " ++ settings.toolName) ++ ("\n" ++
        ("--" ++ ((" Generated on " ++ stamp.write) ++ ("\n" ++ ("\n" ++ x)))))) := by
    have hfirst : " SQL Schema generated by " = " " ++ "SQL" ++ " Schema generated by " := rfl
    have hbreaks : "\n\n" = "\n" ++ "\n" := rfl
    simp only [header, Format.commentMark, Format.value, hfirst, hbreaks, String.append_assoc]
  rw [hheader, source_lineComment htool.1 htool.2, source_lineComment hstamp.1 hstamp.2, source_newline]
  rfl

/-- The header of an SQL export makes no difference to reading, whatever text stands behind it: the same
tables come out under the same ids and the same is skipped, or both texts fail alike. So an export is read
as the code that it stamps. -/
theorem read_header (hline : '\n' ∉ settings.toolName.toList)
    (hopen : ¬ Has '/' '*' settings.toolName.toList) (stamp : Stamp) (ids : TableId.Supply) :
    (∀ x, Ddl.read ids (header settings .sql stamp.write ++ x) = Ddl.read ids x) ∧
    ∀ tables : List (Table τ),
      Ddl.read ids (schema settings .sql stamp.write tables) = Ddl.read ids (Sql.generate tables) := by
  have hread : ∀ x, Ddl.read ids (header settings .sql stamp.write ++ x) = Ddl.read ids x :=
    fun x => read_of_source_eq (by decide) (source_header hline hopen stamp x) ids
  exact ⟨hread, fun tables => hread (Sql.generate tables)⟩

/-- A tool whose name closes a comment that nothing opens. -/
def starredSettings : ExportSettings := ⟨"draft -- */ 2", "model", "postgresql", 255⟩

def noonStamp : Stamp := ⟨2024, 3, 1, 12, 0, 0⟩

/-- Behind the header stand a comment, a statement, text that is skipped, a statement that never closes,
and a block comment that does not close either. -/
def raggedText : String := "*/ -- x\nCREATE TABLE t (a INT); DROP u; CREATE TABLE v (b INT /* end"

theorem read_header_raggedText :
    header starredSettings .sql noonStamp.write =
      "-- SQL Schema generated by draft -- */ 2\n-- Generated on 2024-03-01 12:00:00\n\n" ∧
    Ddl.read .counter (header starredSettings .sql noonStamp.write ++ raggedText) =
      Ddl.read .counter raggedText ∧
    ∀ tables : List (Table String),
      Ddl.read .counter (schema starredSettings .sql noonStamp.write tables) =
        Ddl.read .counter (Sql.generate tables) := by
  obtain ⟨hread, hschema⟩ :=
    @read_header String _ _ starredSettings (by decide +kernel) (by decide +kernel) noonStamp .counter
  exact ⟨by decide +kernel, hread raggedText, hschema⟩

end SchemaDesign.Export
