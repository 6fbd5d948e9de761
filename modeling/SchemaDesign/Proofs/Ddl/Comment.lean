import SchemaDesign.Ddl.Comment

/-! Text that holds no comment. Removing comments leaves such text, and leaves it as it is. -/
namespace SchemaDesign.Ddl

variable {x y : Char} {s t : List Char}

/-- Two characters stand next to each other. -/
def Has (x y : Char) (s : List Char) : Prop := ∃ a b, s = a ++ x :: y :: b

theorem has_cons {c : Char} : Has x y (c :: s) ↔ (c = x ∧ s.head? = some y) ∨ Has x y s := by
  constructor
  · rintro ⟨a, b, h⟩
    cases a with
    | nil =>
      rw [List.nil_append, List.cons.injEq] at h
      exact .inl ⟨h.1, by rw [h.2]; rfl⟩
    | cons d a =>
      rw [List.cons_append, List.cons.injEq] at h
      exact .inr ⟨a, b, h.2⟩
  · rintro (⟨rfl, h⟩ | ⟨a, b, rfl⟩)
    · cases s with
      | nil => cases h
      | cons d s =>
        cases h
        exact ⟨[], s, rfl⟩
    · exact ⟨c :: a, b, rfl⟩

theorem not_has_nil : ¬ Has x y [] := by
  rintro ⟨a, b, h⟩
  simp at h

instance decidableHas (x y : Char) : (s : List Char) → Decidable (Has x y s)
  | [] => isFalse not_has_nil
  | _ :: s =>
      have := decidableHas x y s
      decidable_of_iff _ has_cons.symm

theorem Has.append_left (h : Has x y t) (s : List Char) : Has x y (s ++ t) := by
  obtain ⟨a, b, rfl⟩ := h
  exact ⟨s ++ a, b, by rw [List.append_assoc]⟩

theorem Has.append_right (h : Has x y s) (t : List Char) : Has x y (s ++ t) := by
  obtain ⟨a, b, rfl⟩ := h
  exact ⟨a, b ++ t, by rw [List.append_assoc]; rfl⟩

theorem not_has_of_not_mem (h : x ∉ s) : ¬ Has x y s := by
  rintro ⟨a, b, rfl⟩
  exact h (by simp)

theorem not_head?_of_forall {x y z : Char} (h : ∀ r, x = y → s = z :: r → False) :
    ¬ (x = y ∧ s.head? = some z) := by
  rintro ⟨hx, hs⟩
  obtain ⟨r, rfl⟩ := List.head?_eq_some_iff.1 hs
  exact h r hx rfl

/-- A pair does not reach across a third character. -/
theorem has_append_cons {c : Char} (hx : c ≠ x) (hy : c ≠ y) :
    Has x y (s ++ c :: t) ↔ Has x y s ∨ Has x y t := by
  induction s with
  | nil =>
    rw [List.nil_append, has_cons]
    simp [hx, not_has_nil]
  | cons d s ih =>
    have hhead : (s ++ c :: t).head? = some y ↔ s.head? = some y := by
      cases s with
      | nil => simp [hy]
      | cons e s => rfl
    rw [List.cons_append, has_cons, has_cons, ih, hhead, or_assoc]

/-- The first place where a pair stands. -/
theorem Has.first (hxy : x ≠ y) (h : Has x y s) :
    ∃ a b, s = a ++ x :: y :: b ∧ ¬ Has x y (a ++ [x]) := by
  induction s with
  | nil => exact absurd h not_has_nil
  | cons c s ih =>
    by_cases hhere : c = x ∧ s.head? = some y
    · obtain ⟨rfl, hy⟩ := hhere
      obtain ⟨b, rfl⟩ := List.head?_eq_some_iff.1 hy
      refine ⟨[], b, rfl, fun hx => ?_⟩
      rcases has_cons.1 hx with ⟨-, hx⟩ | hx
      · cases hx
      · exact not_has_nil hx
    · obtain ⟨a, b, rfl, hfirst⟩ := ih ((has_cons.1 h).resolve_left hhere)
      refine ⟨c :: a, b, rfl, fun hx => ?_⟩
      rcases has_cons.1 hx with ⟨hc, hx⟩ | hx
      · cases a with
        | nil => exact hxy (Option.some.inj hx)
        | cons d a => exact hhere ⟨hc, hx⟩
      · exact hfirst hx

/-- No block comment is closed. -/
def Quiet (s : List Char) : Prop := ∀ a b, s = a ++ '/' :: '*' :: b → ¬ Has '*' '/' b

theorem quiet_nil : Quiet [] := by
  intro a b h
  simp at h

theorem quiet_cons {c : Char} :
    Quiet (c :: s) ↔ (c = '/' → ∀ b, s = '*' :: b → ¬ Has '*' '/' b) ∧ Quiet s := by
  constructor
  · intro h
    refine ⟨fun hc b hb => h [] b (by rw [hc, hb]; rfl), fun a b hs => h (c :: a) b (by rw [hs]; rfl)⟩
  · rintro ⟨hhead, hs⟩ a b h
    cases a with
    | nil =>
      rw [List.nil_append, List.cons.injEq] at h
      exact hhead h.1 b h.2
    | cons d a =>
      rw [List.cons_append, List.cons.injEq] at h
      exact hs a b h.2

theorem Quiet.within {a b : List Char} (h : Quiet (a ++ (s ++ b))) : Quiet s := by
  rintro c d rfl hd
  exact h (a ++ c) (d ++ b) (by simp only [List.append_assoc, List.cons_append]) (hd.append_right b)

theorem quiet_of_not_has (h : ¬ Has '*' '/' s) : Quiet s := by
  rintro a b rfl hb
  exact h (Has.append_left (t := '/' :: '*' :: b) (Has.append_left hb ['/', '*']) a)

/-- Characters that take no part in comments. -/
def isInert (c : Char) : Bool := c != '/' && c != '*' && c != '-'

theorem isInert_spec {c : Char} (h : isInert c = true) : c ≠ '/' ∧ c ≠ '*' ∧ c ≠ '-' := by
  simpa [isInert, and_assoc] using h

theorem afterBlock?_eq_none : afterBlock? s = none ↔ ¬ Has '*' '/' s := by
  fun_induction afterBlock? s with
  | case1 => simp [not_has_nil]
  | case2 rest => simpa using ⟨[], rest, rfl⟩
  | case3 c rest hnot ih =>
    rw [ih, has_cons, not_or]
    exact ⟨fun h => ⟨not_head?_of_forall hnot, h⟩, fun h => h.2⟩

/-- What stands behind a closing mark comes from behind a pair in the text. -/
theorem afterBlock?_eq_some {rest : List Char} (h : afterBlock? s = some rest) :
    ∃ a, s = a ++ '*' :: '/' :: rest := by
  fun_induction afterBlock? s with
  | case1 => cases h
  | case2 r => cases h; exact ⟨[], rfl⟩
  | case3 c r _ ih =>
    obtain ⟨a, rfl⟩ := ih h
    exact ⟨c :: a, rfl⟩

theorem withoutBlocks_of_quiet (h : Quiet s) : withoutBlocks s = s := by
  fun_induction withoutBlocks s with
  | case1 => rfl
  | case2 s rest hrest ih =>
    have hnone := afterBlock?_eq_none.2 (h [] s rfl)
    rw [hrest] at hnone
    cases hnone
  | case3 s hnone ih => rw [ih (quiet_cons.1 h).2]
  | case4 c s _ ih => rw [ih (quiet_cons.1 h).2]

theorem withoutBlocks_cons {c : Char} (h : ¬ (c = '/' ∧ s.head? = some '*')) :
    withoutBlocks (c :: s) = c :: withoutBlocks s := by
  rw [withoutBlocks]
  rintro t rfl rfl
  exact h ⟨rfl, rfl⟩

section Opening

variable {a b : List Char}

theorem withoutBlocks_append (ha : ¬ Has '/' '*' a) (hs : s.head? ≠ some '*') :
    withoutBlocks (a ++ s) = a ++ withoutBlocks s := by
  induction a with
  | nil => rfl
  | cons x a ih =>
    rw [has_cons, not_or] at ha
    rw [List.cons_append, withoutBlocks_cons, ih ha.2, List.cons_append]
    rintro ⟨hx, hhead⟩
    cases a with
    | nil => exact hs hhead
    | cons y a => exact ha.1 ⟨hx, hhead⟩

theorem withoutBlocks_closed {rest : List Char} (h : afterBlock? s = some rest) :
    withoutBlocks ('/' :: '*' :: s) = ' ' :: withoutBlocks rest := by
  rw [withoutBlocks]
  split
  · next hrest =>
    rw [h] at hrest
    cases hrest
    rfl
  · next hnone =>
    rw [h] at hnone
    cases hnone

/-- Behind a text in which no block comment begins. -/
theorem quiet_append_opening (ha : ¬ Has '/' '*' (a ++ ['/'])) (hb : ¬ Has '*' '/' b) :
    Quiet (a ++ '/' :: '*' :: b) := by
  induction a with
  | nil =>
    have hstar : Quiet ('*' :: b) := quiet_cons.2 ⟨fun h => absurd h (by decide), quiet_of_not_has hb⟩
    refine quiet_cons.2 ⟨fun _ s hs => ?_, hstar⟩
    rwa [← (List.cons.inj hs).2]
  | cons c a ih =>
    rw [List.cons_append, has_cons, not_or] at ha
    refine quiet_cons.2 ⟨fun hc s hs => ?_, ih ha.2⟩
    refine absurd ⟨hc, ?_⟩ ha.1
    cases a with
    | nil => exact absurd (List.cons.inj hs).1 (by decide)
    | cons d a => exact congrArg some (List.cons.inj hs).1

theorem withoutBlocks_append_opening {rest : List Char} (ha : ¬ Has '/' '*' (a ++ ['/']))
    (hb : afterBlock? b = some rest) :
    withoutBlocks (a ++ '/' :: '*' :: b) = a ++ ' ' :: withoutBlocks rest := by
  have hhead : ('/' :: '*' :: b).head? ≠ some '*' := by simp
  rw [withoutBlocks_append (fun h => ha (h.append_right _)) hhead, withoutBlocks_closed hb]

end Opening

theorem withoutLineComments_of_not_has (h : ¬ Has '-' '-' s) : withoutLineComments s = s := by
  fun_induction withoutLineComments s with
  | case1 => rfl
  | case2 s ih => exact absurd ⟨[], s, rfl⟩ h
  | case3 c s _ ih => rw [ih fun hs => h (has_cons.2 (.inr hs))]

/-- Text in which neither kind of comment is found. -/
structure Uncommented (s : List Char) : Prop where
  quiet : Quiet s
  dashes : ¬ Has '-' '-' s

theorem Uncommented.withoutComments_eq (h : Uncommented s) : withoutComments s = s := by
  rw [withoutComments, withoutBlocks_of_quiet h.quiet, withoutLineComments_of_not_has h.dashes]

theorem head?_withoutBlocks (hy : y ≠ ' ') (h : (withoutBlocks s).head? = some y) :
    s.head? = some y := by
  unfold withoutBlocks at h
  split at h
  · cases h
  · split at h
    · exact absurd (Option.some.inj h).symm hy
    · exact h
  · exact h

/-- A pair that is left was there before. -/
theorem has_withoutBlocks (hx : x ≠ ' ') (hy : y ≠ ' ') (h : Has x y (withoutBlocks s)) : Has x y s := by
  fun_induction withoutBlocks s with
  | case1 => exact h
  | case2 s rest hrest ih =>
    obtain ⟨a, rfl⟩ := afterBlock?_eq_some hrest
    rcases has_cons.1 h with h | h
    · exact absurd h.1.symm hx
    · have hrest := (ih h).append_left ('/' :: '*' :: (a ++ ['*', '/']))
      simpa only [List.append_assoc, List.cons_append, List.nil_append] using hrest
  | case3 s hnone ih =>
    exact has_cons.2 ((has_cons.1 h).imp (fun h => ⟨h.1, head?_withoutBlocks hy h.2⟩) ih)
  | case4 c s _ ih =>
    exact has_cons.2 ((has_cons.1 h).imp (fun h => ⟨h.1, head?_withoutBlocks hy h.2⟩) ih)

theorem quiet_withoutBlocks (s : List Char) : Quiet (withoutBlocks s) := by
  fun_induction withoutBlocks s with
  | case1 => exact quiet_nil
  | case2 s rest hrest ih => exact quiet_cons.2 ⟨fun he => absurd he (by decide), ih⟩
  | case3 s hnone ih =>
    refine quiet_cons.2 ⟨fun _ b hb hclose => ?_, ih⟩
    have hstar : withoutBlocks ('*' :: s) = '*' :: withoutBlocks s := by
      rw [withoutBlocks]
      simp
    rw [hstar, List.cons.injEq] at hb
    rw [← hb.2] at hclose
    exact afterBlock?_eq_none.1 hnone (has_withoutBlocks (by decide) (by decide) hclose)
  | case4 c s hnot ih =>
    refine quiet_cons.2 ⟨fun hc b hb => ?_, ih⟩
    have hhead := head?_withoutBlocks (s := s) (y := '*') (by decide) (by rw [hb]; rfl)
    exact absurd ⟨hc, hhead⟩ (not_head?_of_forall hnot)

theorem head?_withoutLineComments (hy : y ≠ '\n') (h : (withoutLineComments s).head? = some y) :
    s.head? = some y := by
  fun_induction withoutLineComments s with
  | case1 => exact h
  | case2 s ih =>
    have hbreak := List.head?_dropWhile_not (· != '\n') s
    rw [ih h] at hbreak
    exact absurd (by simpa using hbreak) hy
  | case3 c s _ ih => exact h

theorem has_withoutLineComments (hy : y ≠ '\n') (h : Has x y (withoutLineComments s)) : Has x y s := by
  fun_induction withoutLineComments s with
  | case1 => exact h
  | case2 s ih =>
    have hrest := (ih h).append_left (s.takeWhile (· != '\n'))
    rw [List.takeWhile_append_dropWhile] at hrest
    exact hrest.append_left ['-', '-']
  | case3 c s _ ih =>
    exact has_cons.2 ((has_cons.1 h).imp (fun h => ⟨h.1, head?_withoutLineComments hy h.2⟩) ih)

theorem not_has_withoutLineComments (s : List Char) : ¬ Has '-' '-' (withoutLineComments s) := by
  fun_induction withoutLineComments s with
  | case1 => exact not_has_nil
  | case2 s ih => exact ih
  | case3 c s hnot ih =>
    rw [has_cons, not_or]
    exact ⟨fun ⟨hc, hhead⟩ =>
      not_head?_of_forall hnot ⟨hc, head?_withoutLineComments (by decide) hhead⟩, ih⟩

theorem quiet_withoutLineComments (h : Quiet s) : Quiet (withoutLineComments s) := by
  fun_induction withoutLineComments s with
  | case1 => exact quiet_nil
  | case2 s ih =>
    refine ih (Quiet.within (a := '-' :: '-' :: s.takeWhile (· != '\n')) (b := []) ?_)
    rwa [List.append_nil, List.cons_append, List.cons_append, List.takeWhile_append_dropWhile]
  | case3 c s _ ih =>
    obtain ⟨hhead, hs⟩ := quiet_cons.1 h
    refine quiet_cons.2 ⟨fun hc b hb hclose => ?_, ih hs⟩
    have hstar := head?_withoutLineComments (s := s) (y := '*') (by decide) (by rw [hb]; rfl)
    cases s with
    | nil => cases hstar
    | cons d s =>
      cases hstar
      have hstep : withoutLineComments ('*' :: s) = '*' :: withoutLineComments s := by
        rw [withoutLineComments]
        simp
      rw [hstep, List.cons.injEq] at hb
      rw [← hb.2] at hclose
      exact hhead hc s rfl (has_withoutLineComments (by decide) hclose)

/-- Removing comments leaves none. -/
theorem uncommented_withoutComments (s : List Char) : Uncommented (withoutComments s) :=
  ⟨quiet_withoutLineComments (quiet_withoutBlocks s), not_has_withoutLineComments _⟩

end SchemaDesign.Ddl
