import SchemaDesign.Ddl.Piece
import SchemaDesign.Proofs.Ddl.Clause
import SchemaDesign.Proofs.Ddl.Comment

/-! Comments that are closed within a name in parentheses. Removing them joins what stands before to
the rest of such a name. -/
namespace SchemaDesign.Ddl
open Text

variable {P : List Char → Prop} {c x y : Char} {l m n s t : List Char}

/-- A text can be put before any other without breaking a law. -/
def Keeps (P : List Char → Prop) (l : List Char) : Prop := ∀ s, P s → P (l ++ s)

theorem Keeps.append (hl : Keeps P l) (hm : Keeps P m) : Keeps P (l ++ m) := by
  intro s hs
  rw [List.append_assoc]
  exact hl _ (hm s hs)

theorem keeps_nil : Keeps P [] := fun _ hs => hs

theorem keeps_forall (h : ∀ c ∈ l, ∀ s, P s → P (c :: s)) : Keeps P l := by
  induction l with
  | nil => exact keeps_nil
  | cons c l ih =>
    exact fun s hs => h c List.mem_cons_self _ (ih (fun d hd => h d (List.mem_cons_of_mem _ hd)) s hs)

/-- Characters that take no part in comments do not matter to a law. -/
def Blind (P : List Char → Prop) : Prop := ∀ c, isInert c = true → ∀ s, P s → P (c :: s)

theorem Blind.keeps (hP : Blind P) (h : ∀ c ∈ l, isInert c = true) : Keeps P l :=
  keeps_forall fun c hc => hP c (h c hc)

theorem not_has_append_singleton (hx : c ≠ x) (hy : c ≠ y) (h : ¬ Has x y l) :
    Keeps (fun s => ¬ Has x y s) (l ++ [c]) := by
  intro s hs
  rw [List.append_assoc, List.singleton_append, has_append_cons hx hy, not_or]
  exact ⟨h, hs⟩

theorem blind_not_has (hx : isInert x = false) (hy : isInert y = false) :
    Blind fun s => ¬ Has x y s := by
  intro c hc s hs
  have hne : c ≠ x ∧ c ≠ y := by
    constructor
    · rintro rfl
      rw [hx] at hc
      cases hc
    · rintro rfl
      rw [hy] at hc
      cases hc
  exact not_has_append_singleton (l := []) hne.1 hne.2 not_has_nil s hs

/-- The text is the rest of a name and a parenthesis, and more. -/
def EndsName (s : List Char) : Prop := ∃ n t, s = n ++ ')' :: t ∧ ∀ c ∈ n, isNameChar c = true

/-- Every mark that closes a block comment stands in a name that a parenthesis ends. -/
def Shut (s : List Char) : Prop := ∀ a b, s = a ++ '*' :: '/' :: b → EndsName b

theorem shut_nil : Shut [] := by
  intro a b h
  simp at h

theorem shut_cons : Shut (c :: s) ↔ (c = '*' → ∀ b, s = '/' :: b → EndsName b) ∧ Shut s := by
  constructor
  · intro h
    exact ⟨fun hc b hb => h [] b (by rw [hc, hb]; rfl), fun a b hs => h (c :: a) b (by rw [hs]; rfl)⟩
  · rintro ⟨hhead, hs⟩ a b h
    cases a with
    | nil =>
      rw [List.nil_append, List.cons.injEq] at h
      exact hhead h.1 b h.2
    | cons d a =>
      rw [List.cons_append, List.cons.injEq] at h
      exact hs a b h.2

theorem Shut.of_append (h : Shut (l ++ s)) : Shut s := by
  intro a b hs
  exact h (l ++ a) b (by rw [hs, List.append_assoc])

/-- Behind a closing mark the rest of a name, and what follows, is shut again. -/
theorem Shut.afterBlock (h : Shut s) (ht : afterBlock? s = some t) :
    ∃ n u, t = n ++ ')' :: u ∧ (∀ c ∈ n, isNameChar c = true) ∧ Shut u := by
  obtain ⟨a, ha⟩ := afterBlock?_eq_some ht
  obtain ⟨n, u, rfl, hn⟩ := h a t ha
  refine ⟨n, u, rfl, hn, Shut.of_append (l := a ++ '*' :: '/' :: (n ++ [')'])) ?_⟩
  rw [ha] at h
  simpa only [List.append_assoc, List.cons_append, List.nil_append] using h

theorem blind_shut : Blind Shut := by
  intro c hc s hs
  exact shut_cons.2 ⟨fun he => absurd he (isInert_spec hc).2.1, hs⟩

theorem keeps_shut (hc : isInert c = true)
    (h : ∀ a b, l = a ++ '*' :: '/' :: b → ∀ s, EndsName (b ++ c :: s)) : Keeps Shut (l ++ [c]) := by
  intro s hs
  rw [List.append_assoc, List.singleton_append]
  induction l with
  | nil => exact blind_shut c hc s hs
  | cons d l ih =>
    refine shut_cons.2 ⟨fun hd b hb => ?_, ih fun a b hl => h (d :: a) b (by rw [hl]; rfl)⟩
    cases l with
    | nil => exact absurd (List.cons.inj hb).1 (isInert_spec hc).1
    | cons e l =>
      obtain ⟨rfl, rfl⟩ := List.cons.inj hb
      exact h [] l (by rw [hd]; rfl) s

theorem keeps_shut_of_not_has (hc : isInert c = true) (h : ¬ Has '*' '/' l) : Keeps Shut (l ++ [c]) :=
  keeps_shut hc fun a b hl => absurd ⟨a, b, hl⟩ h

theorem keeps_shut_name (h : ∀ c ∈ n, isNameChar c = true) : Keeps Shut (n ++ [')']) :=
  keeps_shut (by decide) fun a b hn s => ⟨b, s, rfl, fun c hc => h c (by rw [hn]; simp [hc])⟩

/-- A comment is opened and a blank follows. -/
def Opens (s : List Char) : Prop := ∃ a b, s = a ++ '/' :: '*' :: b ∧ ∃ c ∈ b, isBlank c = true

theorem opens_cons : Opens (c :: s) ↔
    (c = '/' ∧ ∃ b, s = '*' :: b ∧ ∃ d ∈ b, isBlank d = true) ∨ Opens s := by
  constructor
  · rintro ⟨a, b, h, hb⟩
    cases a with
    | nil =>
      rw [List.nil_append, List.cons.injEq] at h
      exact .inl ⟨h.1, b, h.2, hb⟩
    | cons d a =>
      rw [List.cons_append, List.cons.injEq] at h
      exact .inr ⟨a, b, h.2, hb⟩
  · rintro (⟨rfl, b, rfl, hb⟩ | ⟨a, b, rfl, hb⟩)
    · exact ⟨[], b, rfl, hb⟩
    · exact ⟨c :: a, b, rfl, hb⟩

theorem Opens.within (h : Opens s) (a b : List Char) : Opens (a ++ (s ++ b)) := by
  obtain ⟨c, d, rfl, e, he, hb⟩ := h
  exact ⟨a ++ c, d ++ b, by simp only [List.append_assoc, List.cons_append], e,
    List.mem_append_left b he, hb⟩

theorem not_opens_of_forall (h : ∀ c ∈ s, isBlank c = false) : ¬ Opens s := by
  rintro ⟨a, b, rfl, c, hc, hb⟩
  rw [h c (by simp [hc])] at hb
  cases hb

/-- Nothing is opened before the text. -/
theorem not_opens_append_cons (hc : isInert c = true) (hs : ¬ Has '/' '*' s) (ht : ¬ Opens t) :
    ¬ Opens (s ++ c :: t) := by
  obtain ⟨hslash, hstar, -⟩ := isInert_spec hc
  induction s with
  | nil =>
    rw [List.nil_append, opens_cons, not_or]
    exact ⟨fun h => hslash h.1, ht⟩
  | cons d s ih =>
    rw [has_cons, not_or] at hs
    rw [List.cons_append, opens_cons, not_or]
    refine ⟨?_, ih hs.2⟩
    rintro ⟨hd, b, hb, -⟩
    cases s with
    | nil =>
      rw [List.nil_append, List.cons.injEq] at hb
      exact hstar hb.1
    | cons e s =>
      rw [List.cons_append, List.cons.injEq] at hb
      exact hs.1 ⟨hd, by rw [hb.1]; rfl⟩

theorem opening_of_append_cons (h : n ++ ')' :: t = '/' :: '*' :: s) :
    ∃ m, n = '/' :: '*' :: m ∧ s = m ++ ')' :: t := by
  cases n with
  | nil => exact absurd (List.cons.inj h).1 (by decide)
  | cons c n =>
    rw [List.cons_append, List.cons.injEq] at h
    cases n with
    | nil => exact absurd (List.cons.inj h.2).1 (by decide)
    | cons d m =>
      rw [List.cons_append, List.cons.injEq] at h
      exact ⟨m, by rw [h.1, h.2.1], h.2.2.symm⟩

/-- Where comments are closed in names only, a name goes on as flat text up to a parenthesis. -/
theorem withoutBlocks_name (hn : ∀ c ∈ n, isNameChar c = true) (ht : Shut t) :
    ∃ u rest, withoutBlocks (n ++ ')' :: t) = u ++ ')' :: rest ∧
      (∀ c ∈ u, isFlat c = true) ∧ ¬ Opens u := by
  generalize hs : n ++ ')' :: t = s
  fun_induction withoutBlocks s generalizing n t with
  | case1 => simp at hs
  | case2 s rest hrest ih =>
    -- the comment ends in a name, which takes the place of this one
    obtain ⟨m, rfl, rfl⟩ := opening_of_append_cons hs
    have hshut := keeps_shut_name (n := m)
      (fun c hc => hn c (List.mem_cons_of_mem _ (List.mem_cons_of_mem _ hc))) t ht
    rw [List.append_assoc] at hshut
    obtain ⟨k, r, rfl, hk, hr⟩ := hshut.afterBlock hrest
    obtain ⟨u, rest, hu, hflat, hopens⟩ := ih hk hr rfl
    refine ⟨' ' :: u, rest, by rw [hu]; rfl, List.forall_mem_cons.2 ⟨by decide, hflat⟩, ?_⟩
    rw [opens_cons, not_or]
    exact ⟨fun h => absurd h.1 (by decide), hopens⟩
  | case3 s hnone ih =>
    obtain ⟨m, rfl, rfl⟩ := opening_of_append_cons hs
    have hquiet : Quiet ('*' :: (m ++ ')' :: t)) :=
      quiet_cons.2 ⟨fun h => absurd h (by decide), quiet_of_not_has (afterBlock?_eq_none.1 hnone)⟩
    refine ⟨'/' :: '*' :: m, t, by rw [withoutBlocks_of_quiet hquiet]; rfl,
      fun c hc => (isNameChar_spec (hn c hc)).2.2,
      not_opens_of_forall fun c hc => (isNameChar_spec (hn c hc)).1⟩
  | case4 c s hnot ih =>
    cases n with
    | nil =>
      obtain ⟨rfl, rfl⟩ := List.cons.inj hs
      exact ⟨[], withoutBlocks t, rfl, by simp, not_opens_of_forall (by simp)⟩
    | cons d n =>
      rw [List.cons_append] at hs
      obtain ⟨rfl, rfl⟩ := List.cons.inj hs
      obtain ⟨u, rest, hu, hflat, hopens⟩ := ih (fun e he => hn e (List.mem_cons_of_mem _ he)) ht rfl
      refine ⟨d :: u, rest, by rw [hu]; rfl,
        List.forall_mem_cons.2 ⟨(isNameChar_spec (hn d List.mem_cons_self)).2.2, hflat⟩, ?_⟩
      rw [opens_cons, not_or]
      refine ⟨?_, hopens⟩
      rintro ⟨hd, b, rfl, -⟩
      have hhead := head?_withoutBlocks (s := n ++ ')' :: t) (y := '*') (by decide) (by rw [hu]; rfl)
      cases hrest : n ++ ')' :: t with
      | nil => simp at hrest
      | cons e r =>
        rw [hrest] at hhead
        exact hnot r hd (by rw [hrest, Option.some.inj hhead])

end SchemaDesign.Ddl
