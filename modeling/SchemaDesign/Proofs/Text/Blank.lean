import Mathlib.Data.List.TakeWhile
import SchemaDesign.Text.Blank

/-! What trimming leaves: blanks in front make no difference, text without blanks stays, and only a text
of blanks is trimmed to nothing. -/
namespace SchemaDesign.Text

variable {s : List Char}

theorem trim_blank_append {b : List Char} (hb : ∀ c ∈ b, isBlank c = true) : trim (b ++ s) = trim s := by
  simp only [trim, trimStart, List.dropWhile_append_of_pos hb]

theorem trim_of_forall (h : ∀ c ∈ s, isBlank c = false) : trim s = s := by
  have hdrop : ∀ u : List Char, (∀ c ∈ u, isBlank c = false) → u.dropWhile isBlank = u := by
    intro u hu
    rw [List.dropWhile_eq_self_iff]
    intro hlength
    rw [hu _ (List.getElem_mem hlength)]
    exact Bool.false_ne_true
  have hend : s.reverse.dropWhile isBlank = s.reverse :=
    hdrop s.reverse fun c hc => h c (List.mem_reverse.1 hc)
  rw [trim, trimStart, hdrop s h, trimEnd, hend, List.reverse_reverse]

theorem trim_eq_nil_iff : trim s = [] ↔ ∀ c ∈ s, isBlank c = true := by
  rw [trim, trimEnd, List.reverse_eq_nil_iff, List.dropWhile_eq_nil_iff, trimStart]
  simp only [List.mem_reverse]
  constructor
  · intro h
    have hnil : s.dropWhile isBlank = [] := by
      by_contra hne
      have hhead := List.head_dropWhile_not isBlank hne
      rw [h _ (List.head_mem hne)] at hhead
      cases hhead
    exact List.dropWhile_eq_nil_iff.1 hnil
  · exact fun h c hc => h c ((List.dropWhile_suffix _).subset hc)

end SchemaDesign.Text
