import SchemaDesign.Proofs.Ddl.Statement
import SchemaDesign.Proofs.Text.Blank

/-! Cutting a body at its commas: pieces that are whole in themselves, with a comma between each
two, are found again. -/
namespace SchemaDesign.Ddl
open Text

/-- Text without a comma outside parentheses, `depth` of which are open before it and none behind
it. -/
def Undivided (depth : Int) : List Char → Prop
  | [] => depth = 0
  | c :: s => ¬ (c = ',' ∧ depth = 0) ∧ Undivided (depth + depthChange c) s

instance decidableUndivided : (depth : Int) → (s : List Char) → Decidable (Undivided depth s)
  | depth, [] => inferInstanceAs (Decidable (depth = 0))
  | depth, c :: s =>
      have := decidableUndivided (depth + depthChange c) s
      inferInstanceAs (Decidable (¬ (c = ',' ∧ depth = 0) ∧ Undivided (depth + depthChange c) s))

theorem Undivided.append {depth : Int} {s t : List Char} (hs : Undivided depth s)
    (ht : Undivided 0 t) : Undivided depth (s ++ t) := by
  induction s generalizing depth with
  | nil =>
    rw [Undivided] at hs
    rwa [hs]
  | cons c s ih => exact ⟨hs.1, ih hs.2⟩

theorem cutAtCommas_undivided {depth : Int} {s : List Char} (h : Undivided depth s) :
    cutAtCommas depth s = [s] := by
  induction s generalizing depth with
  | nil => rfl
  | cons c s ih => simp only [cutAtCommas, if_neg h.1, ih h.2]

theorem cutAtCommas_append {depth : Int} {s : List Char} (h : Undivided depth s) (t : List Char) :
    cutAtCommas depth (s ++ ',' :: t) = s :: cutAtCommas 0 t := by
  induction s generalizing depth with
  | nil =>
    rw [Undivided] at h
    simp [cutAtCommas, h]
  | cons c s ih => simp only [List.cons_append, cutAtCommas, if_neg h.1, ih h.2]

theorem cutAtCommas_intercalate {ps : List (List Char)} (hne : ps ≠ []) (h : ∀ p ∈ ps, Undivided 0 p) :
    cutAtCommas 0 ([','].intercalate ps) = ps := by
  induction ps with
  | nil => exact absurd rfl hne
  | cons p ps ih =>
    have hp := h p List.mem_cons_self
    cases ps with
    | nil =>
      rw [List.intercalate_singleton]
      exact cutAtCommas_undivided hp
    | cons q ps =>
      rw [List.intercalate_cons_cons, List.append_assoc, List.singleton_append, cutAtCommas_append hp,
        ih (List.cons_ne_nil q ps) fun r hr => h r (List.mem_cons_of_mem p hr)]

theorem pieces_intercalate {ps : List (List Char)} (h : ∀ p ∈ ps, Undivided 0 p) :
    pieces ([','].intercalate ps) = (ps.map trim).filter (!·.isEmpty) := by
  cases ps with
  | nil => rfl
  | cons p ps => rw [pieces, cutAtCommas_intercalate (List.cons_ne_nil p ps) h]

/-- Characters that neither divide nor nest. -/
def isFlat (c : Char) : Bool := c != '(' && c != ')' && c != ','

theorem isFlat_spec {c : Char} (h : isFlat c = true) : c ≠ '(' ∧ c ≠ ')' ∧ c ≠ ',' := by
  simpa [isFlat, and_assoc] using h

theorem depthChange_of_isFlat {c : Char} (h : isFlat c = true) : depthChange c = 0 := by
  obtain ⟨ho, hc, -⟩ := isFlat_spec h
  simp [depthChange, ho, hc]

theorem undivided_flat_append {s : List Char} (h : ∀ c ∈ s, isFlat c = true) {depth : Int}
    {t : List Char} (ht : Undivided depth t) : Undivided depth (s ++ t) := by
  induction s with
  | nil => exact ht
  | cons c s ih =>
    have hc := h c List.mem_cons_self
    refine ⟨fun hcomma => (isFlat_spec hc).2.2 hcomma.1, ?_⟩
    rw [depthChange_of_isFlat hc, Int.add_zero]
    exact ih fun d hd => h d (List.mem_cons_of_mem _ hd)

theorem undivided_flat {s : List Char} (h : ∀ c ∈ s, isFlat c = true) : Undivided 0 s := by
  have := undivided_flat_append (t := []) h (rfl : Undivided 0 [])
  rwa [List.append_nil] at this

theorem depthAfter_flat_append {s : List Char} (h : ∀ c ∈ s, isFlat c = true) (depth : Nat)
    (t : List Char) : depthAfter depth (s ++ t) = depthAfter depth t := by
  induction s with
  | nil => rfl
  | cons c s ih =>
    obtain ⟨ho, hc, -⟩ := isFlat_spec (h c List.mem_cons_self)
    simp only [List.cons_append, depthAfter, if_neg ho, if_neg hc]
    exact ih fun d hd => h d (List.mem_cons_of_mem _ hd)

/-- Text that closes what it opens and has no comma outside parentheses. -/
structure Balanced (s : List Char) : Prop where
  undivided : Undivided 0 s
  closes : depthAfter 0 s = some 0

theorem Balanced.append {s t : List Char} (hs : Balanced s) (ht : Balanced t) : Balanced (s ++ t) :=
  ⟨hs.undivided.append ht.undivided, by rw [depthAfter_append, hs.closes]; exact ht.closes⟩

theorem balanced_flat {s : List Char} (h : ∀ c ∈ s, isFlat c = true) : Balanced s := by
  refine ⟨undivided_flat h, ?_⟩
  have := depthAfter_flat_append h 0 []
  rwa [List.append_nil] at this

/-- Flat text in parentheses. -/
theorem balanced_parenthesised {s : List Char} (h : ∀ c ∈ s, isFlat c = true) :
    Balanced ('(' :: (s ++ [')'])) := by
  constructor
  · exact ⟨by simp, undivided_flat_append h ⟨by simp, by simp [Undivided, depthChange]⟩⟩
  · show depthAfter 1 (s ++ [')']) = some 0
    rw [depthAfter_flat_append h]
    rfl

/-- Text that neither begins nor ends with a blank. -/
structure Tight (s : List Char) : Prop where
  ne_nil : s ≠ []
  head : Stops isBlank s
  last : Stops isBlank s.reverse

theorem trim_append_blank {s b : List Char} (h : Tight s) (hb : ∀ c ∈ b, isBlank c = true) :
    trim (s ++ b) = s := by
  have hstart : trimStart (s ++ b) = s ++ b := skipBlanks_of_stops (h.head.append h.ne_nil)
  rw [trim, hstart, trimEnd, List.reverse_append,
    List.dropWhile_append_of_pos fun c hc => hb c (List.mem_reverse.1 hc)]
  have hrev : s.reverse.dropWhile isBlank = s.reverse := skipBlanks_of_stops h.last
  rw [hrev, List.reverse_reverse]

theorem Stops.append_of_both {p : Char → Bool} {s t : List Char} (hs : Stops p s) (ht : Stops p t) :
    Stops p (s ++ t) := by
  cases s with
  | nil => exact ht
  | cons c s => simpa using hs

theorem Tight.append {s t : List Char} (hs : Tight s) (ht : Stops isBlank t.reverse) :
    Tight (s ++ t) where
  ne_nil := List.append_ne_nil_of_left_ne_nil hs.ne_nil t
  head := hs.head.append hs.ne_nil
  last := by
    rw [List.reverse_append]
    exact ht.append_of_both hs.last

/-- A line can be told from its neighbours. -/
structure Line (s : List Char) : Prop where
  tight : Tight s
  balanced : Balanced s

def indent : List Char := "  ".toList

/-- Lines with two spaces before each, and a comma and a line break between each two. -/
def layLines : List (List Char) → List Char
  | [] => []
  | [l] => indent ++ l
  | l :: m :: ls => indent ++ (l ++ ',' :: '\n' :: layLines (m :: ls))

/-- What stands before a line. -/
def layBefore (ls : List (List Char)) : List Char := ls.flatMap fun l => indent ++ (l ++ [',', '\n'])

/-- What stands behind a line. -/
def layAfter : List (List Char) → List Char
  | [] => []
  | l :: ls => ',' :: '\n' :: layLines (l :: ls)

theorem layLines_append_cons (ls : List (List Char)) (l : List Char) (ms : List (List Char)) :
    layLines (ls ++ l :: ms) = layBefore ls ++ (indent ++ (l ++ layAfter ms)) := by
  have hcons : ∀ (l : List Char) ms, layLines (l :: ms) = indent ++ (l ++ layAfter ms) := by
    intro l ms
    cases ms with
    | nil => rw [layLines, layAfter, List.append_nil]
    | cons m ms => rw [layLines, layAfter]
  induction ls with
  | nil => exact hcons l ms
  | cons k ls ih =>
    have hafter : layAfter (ls ++ l :: ms) = ',' :: '\n' :: layLines (ls ++ l :: ms) := by
      cases ls <;> rfl
    rw [List.cons_append, hcons, hafter, ih]
    simp only [layBefore, List.flatMap_cons, List.append_assoc, List.cons_append, List.nil_append]

theorem pieces_layLines {ls : List (List Char)} (h : ∀ l ∈ ls, Line l) :
    pieces ('\n' :: (layLines ls ++ ['\n'])) = ls := by
  unfold pieces
  have hlead : ∀ c ∈ '\n' :: indent, isBlank c = true := by decide
  have hblank : Undivided 0 ('\n' :: indent) := undivided_flat (by decide)
  fun_induction layLines ls with
  | case1 => decide +kernel
  | case2 l =>
    obtain ⟨ht, hu, -⟩ := h l List.mem_cons_self
    have hcut : cutAtCommas 0 ('\n' :: ((indent ++ l) ++ ['\n'])) =
        [('\n' :: indent) ++ (l ++ ['\n'])] := by
      rw [cutAtCommas_undivided]
      · rw [List.append_assoc]; rfl
      · rw [List.append_assoc]
        exact hblank.append (hu.append (undivided_flat (by decide)))
    rw [hcut, List.map_singleton, trim_blank_append hlead, trim_append_blank ht (by decide)]
    simp [ht.ne_nil]
  | case3 l m ls ih =>
    obtain ⟨ht, hu, -⟩ := h l List.mem_cons_self
    have hcut : cutAtCommas 0 ('\n' :: (indent ++ (l ++ ',' :: '\n' :: layLines (m :: ls)) ++ ['\n'])) =
        (('\n' :: indent) ++ l) :: cutAtCommas 0 ('\n' :: (layLines (m :: ls) ++ ['\n'])) := by
      rw [← cutAtCommas_append (hblank.append hu)]
      simp only [List.append_assoc, List.cons_append]
    have htrim : trim (('\n' :: indent) ++ l) = l := by
      have := trim_append_blank (b := []) ht (by simp)
      rwa [List.append_nil, ← trim_blank_append hlead] at this
    have ih := ih fun n hn => h n (List.mem_cons_of_mem _ hn)
    rw [hcut, List.map_cons, htrim, List.filter_cons_of_pos (by simp [ht.ne_nil]), ih]

theorem closes_layBefore {ls : List (List Char)} (h : ∀ l ∈ ls, Line l) :
    depthAfter 0 (layBefore ls) = some 0 := by
  have hindent : ∀ c ∈ indent, isFlat c = true := by decide
  induction ls with
  | nil => rfl
  | cons l ls ih =>
    rw [layBefore, List.flatMap_cons, List.append_assoc, depthAfter_flat_append hindent,
      List.append_assoc, depthAfter_append, (h l List.mem_cons_self).balanced.closes]
    exact ih fun m hm => h m (List.mem_cons_of_mem _ hm)

theorem closes_layLines {ls : List (List Char)} (h : ∀ l ∈ ls, Line l) :
    depthAfter 0 ('\n' :: (layLines ls ++ ['\n'])) = some 0 := by
  have hends : depthAfter 0 ['\n'] = some 0 := rfl
  suffices depthAfter 0 (layLines ls) = some 0 by
    show depthAfter 0 (layLines ls ++ ['\n']) = some 0
    rw [depthAfter_append, this]
    exact hends
  have hindent : ∀ c ∈ indent, isFlat c = true := by decide
  fun_induction layLines ls with
  | case1 => rfl
  | case2 l =>
    rw [depthAfter_flat_append hindent]
    exact (h l List.mem_cons_self).balanced.closes
  | case3 l m ls ih =>
    rw [depthAfter_flat_append hindent, depthAfter_append,
      (h l List.mem_cons_self).balanced.closes]
    exact ih fun n hn => h n (List.mem_cons_of_mem _ hn)

end SchemaDesign.Ddl
