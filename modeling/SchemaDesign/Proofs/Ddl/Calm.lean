import Mathlib.Data.List.Forall2
import SchemaDesign.Proofs.Ddl.Comment

/-! Words that stand one behind the other in a text, and what they can have to do with comments if
that text has none. -/
namespace SchemaDesign.Ddl

variable {w s t : List Char} {ws vs : List (List Char)}

/-- The words stand in the text one behind the other. -/
def Inside : List (List Char) → List Char → Prop
  | [], _ => True
  | w :: ws, s => ∃ a b, s = a ++ (w ++ b) ∧ Inside ws b

theorem Inside.append_left (h : Inside ws t) (s : List Char) : Inside ws (s ++ t) := by
  cases ws with
  | nil => trivial
  | cons w ws =>
    obtain ⟨a, b, rfl, hb⟩ := h
    exact ⟨s ++ a, b, by rw [List.append_assoc], hb⟩

theorem Inside.append (h : Inside ws s) (h' : Inside vs t) : Inside (ws ++ vs) (s ++ t) := by
  induction ws generalizing s with
  | nil => exact h'.append_left s
  | cons w ws ih =>
    obtain ⟨a, b, rfl, hb⟩ := h
    exact ⟨a, b ++ t, by simp only [List.append_assoc], ih hb⟩

/-- What is found in each word is found in the text. -/
theorem Inside.flatten {wss : List (List (List Char))} (h : Inside ws s)
    (hall : List.Forall₂ Inside wss ws) : Inside wss.flatten s := by
  induction hall generalizing s with
  | nil => trivial
  | @cons vs w wss ws hw _ ih =>
    obtain ⟨a, b, rfl, hb⟩ := h
    rw [List.flatten_cons]
    exact (hw.append (ih hb)).append_left a

/-- No word opens a block comment that it closes itself or that a later word closes, and no word
begins a line comment. -/
structure Calm (ws : List (List Char)) : Prop where
  words : ∀ w ∈ ws, Uncommented w
  pairs : ws.Pairwise fun w v => Has '/' '*' w → ¬ Has '*' '/' v

theorem Uncommented.within {a b : List Char} (h : Uncommented (a ++ (s ++ b))) : Uncommented s :=
  ⟨h.quiet.within, fun hd => h.dashes ((hd.append_right b).append_left a)⟩

theorem Inside.split {v : List Char} (h : Inside ws s) (hv : v ∈ ws) : ∃ a b, s = a ++ (v ++ b) := by
  induction ws generalizing s with
  | nil => cases hv
  | cons w ws ih =>
    obtain ⟨a, b, rfl, hb⟩ := h
    rcases List.mem_cons.1 hv with rfl | hv
    · exact ⟨a, b, rfl⟩
    · obtain ⟨c, d, rfl⟩ := ih hb hv
      exact ⟨a ++ (w ++ c), d, by simp only [List.append_assoc]⟩

theorem calm_of_inside (h : Inside ws s) (hs : Uncommented s) : Calm ws := by
  induction ws generalizing s with
  | nil => exact ⟨by simp, .nil⟩
  | cons w ws ih =>
    obtain ⟨a, b, rfl, hb⟩ := h
    have hrest : Uncommented b := by
      rw [← List.append_assoc, ← List.append_nil b] at hs
      exact hs.within
    obtain ⟨hwords, hpairs⟩ := ih hb hrest
    refine ⟨List.forall_mem_cons.2 ⟨hs.within, hwords⟩,
      List.pairwise_cons.2 ⟨fun v hv hopen hclose => ?_, hpairs⟩⟩
    obtain ⟨c, d, rfl⟩ := hopen
    obtain ⟨e, f, rfl⟩ := hb.split hv
    exact hs.quiet (a ++ c) (d ++ (e ++ (v ++ f))) (by simp only [List.append_assoc, List.cons_append])
      (((hclose.append_right f).append_left e).append_left d)

/-- Words that take no part in comments make none. -/
theorem calm_of_inert (h : ∀ w ∈ ws, ∀ c ∈ w, isInert c = true) : Calm ws := by
  have hnot : ∀ w ∈ ws, ¬ Has '/' '*' w ∧ ¬ Has '-' '-' w := fun w hw =>
    ⟨not_has_of_not_mem fun hc => (isInert_spec (h w hw _ hc)).1 rfl,
      not_has_of_not_mem fun hc => (isInert_spec (h w hw _ hc)).2.2 rfl⟩
  refine ⟨fun w hw => ⟨fun a b hs => absurd ⟨a, b, hs⟩ (hnot w hw).1, (hnot w hw).2⟩, ?_⟩
  exact List.pairwise_of_forall_mem_list fun w hw v _ hopen => absurd hopen (hnot w hw).1

end SchemaDesign.Ddl
