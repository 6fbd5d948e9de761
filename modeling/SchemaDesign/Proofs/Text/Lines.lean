import SchemaDesign.Model.Relation
import SchemaDesign.Proofs.Lists
import SchemaDesign.Proofs.Text.CaseMap
import SchemaDesign.Text.Join

/-! The lines of a text. Texts that are joined by line breaks give their lines one after another, and a
text in which nothing breaks the line is its own only line. -/
namespace SchemaDesign

namespace Text

variable {s r : String} {ss : List String}

/-- The lines of a text without the breaks between them. -/
def lines (s : String) : List String := (s.toList.splitOn '\n').map String.ofList

/-- No character of the text breaks the line. -/
def OneLine (s : String) : Prop := '\n' ∉ s.toList

instance (s : String) : Decidable (OneLine s) := inferInstanceAs (Decidable ('\n' ∉ s.toList))

/-- Whether a line begins with a text. -/
def startsWith (lead line : String) : Bool := lead.toList.isPrefixOf line.toList

@[simp] theorem oneLine_append : OneLine (s ++ r) ↔ OneLine s ∧ OneLine r := by
  simp [OneLine]

theorem lines_ne_nil (s : String) : lines s ≠ [] := by
  simp [lines, List.splitOn_ne_nil]

theorem oneLine_of_mem_lines (h : r ∈ lines s) : OneLine r := by
  obtain ⟨l, hl, rfl⟩ := List.mem_map.1 h
  rw [OneLine, String.toList_ofList]
  exact notMem_of_mem_splitOn hl

theorem lines_of_oneLine (h : OneLine s) : lines s = [s] := by
  rw [lines, List.splitOn_eq_singleton h, List.map_singleton, String.ofList_toList]

theorem lines_append_newline (s r : String) : lines (s ++ "\n" ++ r) = lines s ++ lines r := by
  have hbreak : (s ++ "\n" ++ r).toList = s.toList ++ '\n' :: r.toList := by simp
  rw [lines, hbreak, List.splitOn_append_cons_self, List.map_append]
  rfl

/-- What is put before a text stands in its first line. -/
theorem lines_append (h : OneLine s) (r : String) : lines (s ++ r) = (lines r).modifyHead (s ++ ·) := by
  rw [lines, String.toList_append, splitOn_append_of_notMem h, lines]
  cases r.toList.splitOn '\n' with
  | nil => rfl
  | cons l ls => simp [String.ofList_append]

theorem lines_joined (hne : ss ≠ []) : lines (joined "\n" ss) = ss.flatMap lines := by
  induction ss with
  | nil => exact absurd rfl hne
  | cons s ss ih =>
    cases ss with
    | nil => simp [joined]
    | cons r ss => rw [joined, lines_append_newline, ih (List.cons_ne_nil r ss), ← List.flatMap_cons]

theorem flatMap_lines (h : ∀ s ∈ ss, OneLine s) : ss.flatMap lines = ss := by
  rw [List.flatMap_def, List.map_congr_left fun s hs => lines_of_oneLine (h s hs), ← List.flatMap_def,
    List.flatMap_singleton']

theorem oneLine_joined {separator : String} (hseparator : OneLine separator) (h : ∀ s ∈ ss, OneLine s) :
    OneLine (joined separator ss) := by
  induction ss with
  | nil => exact List.not_mem_nil
  | cons s ss ih =>
    obtain ⟨hs, hss⟩ := List.forall_mem_cons.1 h
    cases ss with
    | nil => exact hs
    | cons r ss => simp [joined, hs, hseparator, ih hss]

/-! Case maps -/

/-- No line break comes of a character that is none, where exceptions and runs stay clear of it. -/
theorem oneLine_expandCase {exceptions : List (Nat × List Nat)} {runs : List CaseRun} {c : Char}
    (hexceptions : ∀ e ∈ exceptions, 10 ∉ e.2) (hruns : ∀ run ∈ runs, 10 < run.2.2.2) (hc : c ≠ '\n') :
    '\n' ∉ expandCase exceptions runs c := by
  have hshift : shiftCase runs c.toNat ≠ 10 := by
    rcases shiftCase_eq_or runs c.toNat with hsame | ⟨run, hrun, hle, -⟩
    · rw [hsame]
      exact fun he => hc (by rw [← Char.ofNat_toNat c, he])
    · exact Nat.ne_of_gt (Nat.lt_of_lt_of_le (hruns run hrun) hle)
  have hall : ∀ d ∈ expandCase exceptions runs c, d.toNat ≠ 10 :=
    forall_mem_expandCase (p := (· ≠ 10)) (by decide)
      (fun e he n hn heq => hexceptions e he (heq ▸ hn)) hshift
  exact fun hmem => hall _ hmem rfl

theorem newline_notMem_upperOf {c : Char} (hc : c ≠ '\n') : '\n' ∉ upperOf c :=
  oneLine_expandCase (by decide +kernel) (by decide +kernel) hc

theorem newline_notMem_lowerOf {c : Char} (hc : c ≠ '\n') (before after : List Char) :
    '\n' ∉ lowerOf before c after := by
  unfold lowerOf
  split
  · split <;> decide
  · exact oneLine_expandCase (by decide) (by decide +kernel) hc

end Text

open Text

theorem oneLine_capitalizeFirst {s : String} (h : OneLine s) : OneLine (capitalizeFirst s) := by
  unfold capitalizeFirst
  unfold OneLine at h
  split
  · decide
  · next c rest hs =>
    rw [hs, List.mem_cons, not_or] at h
    simp [OneLine, newline_notMem_upperOf (Ne.symm h.1), h.2]

theorem oneLine_lowerFirst {s : String} (h : OneLine s) : OneLine (lowerFirst s) := by
  unfold lowerFirst
  unfold OneLine at h
  split
  · decide
  · next c rest hs =>
    rw [hs, List.mem_cons, not_or] at h
    simp [OneLine, newline_notMem_lowerOf (Ne.symm h.1), h.2]

end SchemaDesign
