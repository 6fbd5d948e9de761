import SchemaDesign.Proofs.Ddl.Cut
import SchemaDesign.Proofs.Ddl.Nesting

/-! The parts of a body. A nested text can be taken apart in one way only at commas so that the parts are
nested again and none of them could be cut once more. These are the parts that the scan finds: how many
parentheses it counts as open is what the text behind the last cut opens, less what it closes. -/
namespace SchemaDesign.Ddl
open Text

variable {body s p : List Char} {ps qs : List (List Char)} {depth : Nat}

/-- A nested text in which no comma stands outside all parentheses. -/
structure Part (p : List Char) : Prop where
  nested : Nested p
  uncut : ∀ a b, p = a ++ ',' :: b → a.count ')' ≠ a.count '('

/-- A text as parts with a comma between each two. An empty text has one part, which is empty too. -/
structure Decomposition (ps : List (List Char)) (body : List Char) : Prop where
  ne_nil : ps ≠ []
  parts : ∀ p ∈ ps, Part p
  joined : [','].intercalate ps = body

/-! Counting parentheses -/

/-- How many more parentheses are opened in a text than closed. -/
def surplus (s : List Char) : Int := s.count '(' - s.count ')'

theorem surplus_cons (c : Char) (s : List Char) : surplus (c :: s) = depthChange c + surplus s := by
  unfold surplus depthChange
  split
  · next ho =>
    rw [ho, List.count_cons_self, List.count_cons_of_ne (by decide)]
    omega
  · next ho =>
    split
    · next hc =>
      rw [hc, List.count_cons_self, List.count_cons_of_ne (by decide)]
      omega
    · next hc =>
      rw [List.count_cons_of_ne ho, List.count_cons_of_ne hc]
      omega

theorem surplus_eq_zero_iff : surplus s = 0 ↔ s.count ')' = s.count '(' := by
  unfold surplus
  omega

/-- What the scan counts at a comma is what is open before the text and what the text up to there adds. -/
theorem undivided_iff {depth : Int} : Undivided depth s ↔
    depth + surplus s = 0 ∧ ∀ a b, s = a ++ ',' :: b → depth + surplus a ≠ 0 := by
  induction s generalizing depth with
  | nil => simp [Undivided, surplus]
  | cons c s ih =>
    rw [Undivided, ih, surplus_cons, ← Int.add_assoc]
    constructor
    · rintro ⟨hc, hends, hs⟩
      refine ⟨hends, fun a b hab => ?_⟩
      cases a with
      | nil =>
        cases hab
        simpa [surplus] using hc
      | cons e a =>
        cases hab
        rw [surplus_cons, ← Int.add_assoc]
        exact hs a b rfl
    · rintro ⟨hends, hs⟩
      refine ⟨?_, hends, fun a b hab => ?_⟩
      · rintro ⟨rfl, rfl⟩
        exact hs [] s rfl rfl
      · have := hs (c :: a) b (by rw [hab]; rfl)
        rwa [surplus_cons, ← Int.add_assoc] at this

theorem part_iff : Part p ↔ Balanced p := by
  have huncut : Undivided 0 p ↔
      p.count ')' = p.count '(' ∧ ∀ a b, p = a ++ ',' :: b → a.count ')' ≠ a.count '(' := by
    simp only [undivided_iff, Int.zero_add, ne_eq, surplus_eq_zero_iff]
  constructor
  · exact fun h => ⟨huncut.2 ⟨h.nested.total, h.uncut⟩, nested_iff.1 h.nested⟩
  · exact fun h => ⟨nested_iff.2 h.closes, (huncut.1 h.undivided).2⟩

/-! What the scan finds -/

theorem depthAfter_cons_eq_some {c : Char} {e : Nat} : depthAfter depth (c :: s) = some e ↔
    ∃ d : Nat, (d : Int) = depth + depthChange c ∧ depthAfter d s = some e := by
  simp only [depthAfter, depthChange]
  split
  · constructor
    · exact fun h => ⟨depth + 1, rfl, h⟩
    · rintro ⟨d, hd, h⟩
      obtain rfl : d = depth + 1 := by omega
      exact h
  · split
    · cases depth with
      | zero =>
        constructor
        · intro h
          cases h
        · rintro ⟨d, hd, -⟩
          omega
      | succ depth =>
        constructor
        · exact fun h => ⟨depth, by omega, h⟩
        · rintro ⟨d, hd, h⟩
          obtain rfl : d = depth := by omega
          exact h
    · constructor
      · exact fun h => ⟨depth, by omega, h⟩
      · rintro ⟨d, hd, h⟩
        obtain rfl : d = depth := by omega
        exact h

/-- The first part closes what was open before the text; the others are parts in themselves. -/
theorem cutAtCommas_parts (h : depthAfter depth s = some 0) :
    ∃ p ps, cutAtCommas depth s = p :: ps ∧ depthAfter depth p = some 0 ∧ Undivided depth p ∧
      ∀ q ∈ ps, Balanced q := by
  induction s generalizing depth with
  | nil =>
    cases h
    exact ⟨[], [], rfl, rfl, rfl, nofun⟩
  | cons c s ih =>
    obtain ⟨d, hd, hs⟩ := depthAfter_cons_eq_some.1 h
    obtain ⟨p, ps, hcut, hcloses, hundivided, hps⟩ := ih hs
    rw [cutAtCommas]
    split
    · next hcomma =>
      -- A cut: nothing is open here, so that the first part of what follows is a part in itself.
      obtain ⟨rfl, hdepth⟩ := hcomma
      obtain rfl : depth = 0 := by omega
      obtain rfl : d = 0 := by simpa [depthChange] using hd
      refine ⟨[], p :: ps, by rw [← hcut], rfl, rfl, ?_⟩
      rw [List.forall_mem_cons]
      exact ⟨⟨hundivided, hcloses⟩, hps⟩
    · next hcomma =>
      rw [← hd, hcut]
      exact ⟨c :: p, ps, rfl, depthAfter_cons_eq_some.2 ⟨d, hd, hcloses⟩,
        ⟨hcomma, hd ▸ hundivided⟩, hps⟩

theorem intercalate_cutAtCommas (depth : Int) (s : List Char) :
    [','].intercalate (cutAtCommas depth s) = s := by
  induction s generalizing depth with
  | nil => rfl
  | cons c s ih =>
    rw [cutAtCommas]
    split
    · next hcomma =>
      obtain ⟨p, ps, -, hcut, -, -⟩ := inside_cutAtCommas depth s
      have ih := ih depth
      rw [hcut] at ih ⊢
      rw [List.intercalate_cons_cons, ih, hcomma.1]
      rfl
    · obtain ⟨p, ps, -, hcut, -, -⟩ := inside_cutAtCommas (depth + depthChange c) s
      have ih := ih (depth + depthChange c)
      rw [hcut] at ih ⊢
      rw [← ih]
      cases ps with
      | nil => rfl
      | cons q ps => rfl

theorem decomposition_cutAtCommas (h : Nested body) : Decomposition (cutAtCommas 0 body) body := by
  obtain ⟨p, ps, hcut, hcloses, hundivided, hps⟩ := cutAtCommas_parts (nested_iff.1 h)
  have hcut : cutAtCommas 0 body = p :: ps := hcut
  have hbalanced : ∀ q ∈ cutAtCommas 0 body, Balanced q := by
    rw [hcut, List.forall_mem_cons]
    exact ⟨⟨hundivided, hcloses⟩, hps⟩
  exact ⟨hcut ▸ List.cons_ne_nil p ps, fun q hq => part_iff.2 (hbalanced q hq),
    intercalate_cutAtCommas 0 body⟩

namespace Decomposition

theorem undivided (h : Decomposition ps body) : ∀ p ∈ ps, Undivided 0 p := fun p hp =>
  (part_iff.1 (h.parts p hp)).undivided

theorem eq_cutAtCommas (h : Decomposition ps body) : ps = cutAtCommas 0 body := by
  rw [← h.joined, cutAtCommas_intercalate h.ne_nil h.undivided]

theorem pieces_eq (h : Decomposition ps body) :
    pieces body = (ps.filter fun p => p.any fun c => !isBlank c).map trim := by
  have hblank : ∀ p : List Char, (!(trim p).isEmpty) = p.any fun c => !isBlank c := by
    intro p
    have hempty : (trim p).isEmpty = p.all isBlank := by
      rw [Bool.eq_iff_iff, List.isEmpty_iff, trim_eq_nil_iff, List.all_eq_true]
    rw [hempty, List.not_all_eq_any_not]
  rw [← h.joined, pieces_intercalate h.undivided, List.filter_map]
  simp only [Function.comp_def, hblank]

/-- What is joined from nested parts is nested. -/
theorem nested (h : Decomposition ps body) : Nested body := by
  obtain ⟨hne, hparts, rfl⟩ := h
  rw [nested_iff]
  induction ps with
  | nil => exact absurd rfl hne
  | cons p ps ih =>
    have hp := nested_iff.1 (hparts p List.mem_cons_self).nested
    cases ps with
    | nil => rwa [List.intercalate_singleton]
    | cons q ps =>
      rw [List.intercalate_cons_cons, List.append_assoc, depthAfter_append, hp]
      exact ih (List.cons_ne_nil q ps) fun r hr => hparts r (List.mem_cons_of_mem p hr)

end Decomposition

/-- Exactly the nested texts have a decomposition, and no more than one; the pieces of a body are its
parts in order, trimmed, without those that are blank. The body of every statement is such a text. -/
theorem pieces_decomposition (body : List Char) :
    (Nested body ↔ ∃! ps, Decomposition ps body) ∧
      (∀ ps, Decomposition ps body →
        pieces body = (ps.filter fun p => p.any fun c => !isBlank c).map trim) ∧
      ∀ text table, (table, body) ∈ statements text → Nested body := by
  refine ⟨⟨fun h => ?_, ?_⟩, fun ps h => h.pieces_eq, fun text table h => statements_nested _ h⟩
  · exact ⟨cutAtCommas 0 body, decomposition_cutAtCommas h, fun ps hps => hps.eq_cutAtCommas⟩
  · rintro ⟨ps, hps, -⟩
    exact hps.nested

/-- A blank part, and commas in parentheses two deep. -/
def pricedBody : List Char := "id INT, price DECIMAL(8, 2), ,CHECK (f(a, b), c)".toList

def pricedParts : List (List Char) :=
  ["id INT".toList, " price DECIMAL(8, 2)".toList, " ".toList, "CHECK (f(a, b), c)".toList]

theorem pieces_decomposition_pricedBody :
    (∃! ps, Decomposition ps pricedBody) ∧ Decomposition pricedParts pricedBody ∧
      pieces pricedBody =
        ["id INT".toList, "price DECIMAL(8, 2)".toList, "CHECK (f(a, b), c)".toList] := by
  obtain ⟨hunique, hpieces, hnested⟩ := pieces_decomposition pricedBody
  have hbody : ("t".toList, pricedBody) ∈
      statements ("CREATE TABLE t (".toList ++ pricedBody ++ ")".toList) := by decide +kernel
  have hparts : Decomposition pricedParts pricedBody := by
    refine ⟨List.cons_ne_nil _ _, fun p hp => part_iff.2 ?_, by decide⟩
    have hall : ∀ p ∈ pricedParts, Undivided 0 p ∧ depthAfter 0 p = some 0 := by decide
    exact ⟨(hall p hp).1, (hall p hp).2⟩
  refine ⟨hunique.1 (hnested _ _ hbody), hparts, ?_⟩
  rw [hpieces pricedParts hparts]
  decide +kernel

end SchemaDesign.Ddl
