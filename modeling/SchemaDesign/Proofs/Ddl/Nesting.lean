import SchemaDesign.Proofs.Ddl.Inside

/-! Parentheses that match. A body ends before the first parenthesis that its own text has not opened: it
is nested in itself, no other nested text ends where a parenthesis closes, and where there is none at all
the statement never closes. -/
namespace SchemaDesign.Ddl

variable {s body rest : List Char} {depth d : Nat}

/-- No prefix closes more parentheses than are open: `depth` of them before the text, the others opened in
it. -/
def Covered (depth : Nat) (s : List Char) : Prop := ∀ p, p <+: s → p.count ')' ≤ depth + p.count '('

theorem covered_nil (depth : Nat) : Covered depth [] := by
  intro p hp
  rw [List.prefix_nil.1 hp]
  exact Nat.zero_le _

theorem covered_cons {c : Char} : Covered depth (c :: s) ↔
    ∀ p, p <+: s → (c :: p).count ')' ≤ depth + (c :: p).count '(' := by
  constructor
  · exact fun h p hp => h (c :: p) (List.cons_prefix_cons.2 ⟨rfl, hp⟩)
  · intro h p hp
    rcases List.prefix_cons_iff.1 hp with rfl | ⟨q, rfl, hq⟩
    · exact Nat.zero_le _
    · exact h q hq

theorem covered_open : Covered depth ('(' :: s) ↔ Covered (depth + 1) s := by
  rw [covered_cons]
  refine forall₂_congr fun p _ => ?_
  rw [List.count_cons_of_ne (by decide), List.count_cons_self]
  omega

theorem covered_close : Covered depth (')' :: s) ↔ 0 < depth ∧ Covered (depth - 1) s := by
  rw [covered_cons]
  have hcount (p : List Char) : (')' :: p).count ')' = p.count ')' + 1 ∧
      (')' :: p).count '(' = p.count '(' := by
    rw [List.count_cons_self, List.count_cons_of_ne (by decide)]
    exact ⟨rfl, rfl⟩
  constructor
  · intro h
    have hdepth := h [] List.nil_prefix
    rw [(hcount []).1, (hcount []).2] at hdepth
    have hpos : 0 < depth := by
      rw [List.count_nil, List.count_nil] at hdepth
      omega
    refine ⟨hpos, fun p hp => ?_⟩
    have hp := h p hp
    rw [(hcount p).1, (hcount p).2] at hp
    omega
  · rintro ⟨hpos, h⟩ p hp
    have hp := h p hp
    rw [(hcount p).1, (hcount p).2]
    omega

theorem covered_other {c : Char} (ho : c ≠ '(') (hc : c ≠ ')') :
    Covered depth (c :: s) ↔ Covered depth s := by
  rw [covered_cons]
  refine forall₂_congr fun p _ => ?_
  rw [List.count_cons_of_ne hc, List.count_cons_of_ne ho]

/-- What is open behind a text is what was open before it and what the text opens, less what it closes;
and at no place of it is that less than nothing. -/
theorem depthAfter_eq_some :
    depthAfter depth s = some d ↔ Covered depth s ∧ d + s.count ')' = depth + s.count '(' := by
  induction s generalizing depth with
  | nil => simp [depthAfter, covered_nil, eq_comm]
  | cons c s ih =>
    simp only [depthAfter]
    split
    · next ho =>
      subst ho
      rw [ih, covered_open, List.count_cons_of_ne (by decide), List.count_cons_self]
      refine and_congr_right fun _ => ?_
      omega
    · next ho =>
      split
      · next hc =>
        subst hc
        rw [covered_close, List.count_cons_self, List.count_cons_of_ne (by decide)]
        cases depth with
        | zero => simp
        | succ e =>
          dsimp only
          rw [ih, Nat.add_sub_cancel]
          constructor
          · rintro ⟨hs, ht⟩
            exact ⟨⟨Nat.succ_pos e, hs⟩, by omega⟩
          · rintro ⟨⟨-, hs⟩, ht⟩
            exact ⟨hs, by omega⟩
      · next hc =>
        rw [ih, covered_other ho hc, List.count_cons_of_ne hc, List.count_cons_of_ne ho]

/-- No prefix closes more parentheses than it opens, and the whole text closes as many as it opens. -/
structure Nested (s : List Char) : Prop where
  prefixes : ∀ p, p <+: s → p.count ')' ≤ p.count '('
  total : s.count ')' = s.count '('

theorem nested_iff : Nested s ↔ depthAfter 0 s = some 0 := by
  rw [depthAfter_eq_some]
  simp only [Covered, Nat.zero_add]
  exact ⟨fun h => ⟨h.prefixes, h.total⟩, fun h => ⟨h.1, h.2⟩⟩

/-- The text that is split off closes what is open before it. -/
theorem depthAfter_of_splitBody (h : splitBody depth s = some (body, rest)) :
    depthAfter depth body = some 0 := by
  induction s generalizing depth body with
  | nil => cases h
  | cons c s ih =>
    simp only [splitBody] at h
    split at h
    · next ho =>
      obtain ⟨⟨b, r⟩, hb, he⟩ := Option.map_eq_some_iff.1 h
      cases he
      simpa only [depthAfter, if_pos ho] using ih hb
    · next ho =>
      split at h
      · next hc =>
        cases depth with
        | zero =>
          cases h
          rfl
        | succ e =>
          obtain ⟨⟨b, r⟩, hb, he⟩ := Option.map_eq_some_iff.1 h
          cases he
          simpa only [depthAfter, if_neg ho, if_pos hc] using ih hb
      · next hc =>
        obtain ⟨⟨b, r⟩, hb, he⟩ := Option.map_eq_some_iff.1 h
        cases he
        simpa only [depthAfter, if_neg ho, if_neg hc] using ih hb

/-- A body is split off exactly where a nested text has a closing parenthesis behind it. -/
theorem splitBody_eq_some_iff :
    splitBody 0 s = some (body, rest) ↔ s = body ++ ')' :: rest ∧ Nested body := by
  rw [nested_iff]
  constructor
  · exact fun h => ⟨splitBody_eq_some h, depthAfter_of_splitBody h⟩
  · rintro ⟨rfl, hbody⟩
    exact splitBody_balanced hbody rest

theorem splitBody_eq_none :
    splitBody 0 s = none ↔ ∀ body rest, s = body ++ ')' :: rest → ¬ Nested body := by
  rw [Option.eq_none_iff_forall_ne_some]
  constructor
  · exact fun h body rest hs hbody => h (body, rest) (splitBody_eq_some_iff.2 ⟨hs, hbody⟩)
  · rintro h ⟨body, rest⟩ hsplit
    obtain ⟨hs, hbody⟩ := splitBody_eq_some_iff.1 hsplit
    exact h body rest hs hbody

/-- The body of every statement is nested. -/
theorem statements_nested {s : List Char} : ∀ st ∈ statements s, Nested st.2 :=
  forall_statements (fun _ _ _ _ _ hb => (splitBody_eq_some_iff.1 hb).2) s

/-- There is one place only where a nested text can end before a closing parenthesis. -/
theorem Nested.body_unique {body' rest' : List Char} (hbody : Nested body) (hbody' : Nested body')
    (h : body ++ ')' :: rest = body' ++ ')' :: rest') : body = body' ∧ rest = rest' := by
  have hsplit := splitBody_eq_some_iff.2 ⟨h, hbody'⟩
  rw [splitBody_eq_some_iff.2 ⟨rfl, hbody⟩] at hsplit
  cases hsplit
  exact ⟨rfl, rfl⟩

end SchemaDesign.Ddl
