import SchemaDesign.Ddl.Report
import SchemaDesign.Proofs.Ddl.Layout
import SchemaDesign.Proofs.Ddl.Scan

/-! Finding statements: how the parts of a text are cut, and what is found in statements that follow
one another with a semicolon and line breaks between. -/
namespace SchemaDesign.Ddl
open Text

theorem segments_of_none {s : List Char} (h : find? s = none) : segments s = [.between s] := by
  rw [segments]
  split
  · rfl
  · next hf => rw [h] at hf; cases hf

theorem segments_of_closed {s body rest : List Char} {f : Found} (h : find? s = some f)
    (hb : splitBody 0 f.after = some (body, rest)) :
    segments s = .between f.before :: .statement f.head f.table body :: segments rest := by
  rw [segments]
  split
  · next hf => rw [h] at hf; cases hf
  · next g hf =>
    rw [h] at hf
    cases hf
    split
    · next hs =>
      rw [hb] at hs
      cases hs
      rfl
    · next hs => rw [hb] at hs; cases hs

theorem segments_of_unclosed {s : List Char} {f : Found} (h : find? s = some f)
    (hb : splitBody 0 f.after = none) :
    segments s = .between f.before :: .unclosed (f.head ++ (splitUnclosed f.after).1) ::
      segments (splitUnclosed f.after).2 := by
  rw [segments]
  split
  · next hf => rw [h] at hf; cases hf
  · next g hf =>
    rw [h] at hf
    cases hf
    split
    · next hs => rw [hb] at hs; cases hs
    · rfl

/-- Induction along the segments of a text. -/
theorem segments_induction {P : List Char → Prop} (none : ∀ s, find? s = none → P s)
    (closed : ∀ s f body rest, find? s = some f → splitBody 0 f.after = some (body, rest) →
      P rest → P s)
    (unclosed : ∀ s f, find? s = some f → splitBody 0 f.after = Option.none →
      P (splitUnclosed f.after).2 → P s) (s : List Char) : P s := by
  induction hs : s.length using Nat.strong_induction_on generalizing s with
  | _ n ih =>
    subst hs
    cases hf : find? s with
    | none => exact none s hf
    | some f =>
      have hafter := length_find? hf
      cases hb : splitBody 0 f.after with
      | none =>
        have hrest := length_splitUnclosed f.after
        exact unclosed s f hf hb (ih _ (by omega) _ rfl)
      | some p =>
        have hrest := length_splitBody hb
        exact closed s f p.1 p.2 hf hb (ih _ (by omega) _ rfl)

theorem find?_word {s : List Char} {f : Found} (h : find? s = some f) : Word f.table := by
  induction s generalizing f with
  | nil => cases h
  | cons c s ih =>
    unfold find? at h
    split at h
    · next hh => cases h; exact header_word hh
    · obtain ⟨g, hg, rfl⟩ := Option.map_eq_some_iff.1 h
      exact ih (f := g) hg

theorem statements_of_none {s : List Char} (h : find? s = none) : statements s = [] := by
  rw [statements, segments_of_none h]
  rfl

theorem statements_of_closed {s body rest : List Char} {f : Found} (h : find? s = some f)
    (hb : splitBody 0 f.after = some (body, rest)) :
    statements s = (f.table, body) :: statements rest := by
  rw [statements, segments_of_closed h hb]
  rfl

theorem statements_of_unclosed {s : List Char} {f : Found} (h : find? s = some f)
    (hb : splitBody 0 f.after = none) : statements s = statements (splitUnclosed f.after).2 := by
  rw [statements, segments_of_unclosed h hb]
  rfl

/-- What holds of each header with a body that is closed holds of every statement. -/
theorem forall_statements {P : List Char × List Char → Prop}
    (closed : ∀ s f body rest, find? s = some f → splitBody 0 f.after = some (body, rest) →
      P (f.table, body)) (s : List Char) : ∀ st ∈ statements s, P st := by
  refine segments_induction (P := fun s => ∀ st ∈ statements s, P st) ?_ ?_ ?_ s
  · intro s hf
    simp [statements_of_none hf]
  · intro s f body rest hf hb ih
    rw [statements_of_closed hf hb, List.forall_mem_cons]
    exact ⟨closed s f body rest hf hb, ih⟩
  · intro s f hf hb ih
    rwa [statements_of_unclosed hf hb]

/-- Every statement has a word for its name. -/
theorem statements_word {s : List Char} : ∀ st ∈ statements s, Word st.1 :=
  forall_statements (fun _ _ _ _ hf _ => find?_word hf) s

/-- How many parentheses are open behind a text, `depth` being open before it. None if it closes
more. -/
def depthAfter (depth : Nat) : List Char → Option Nat
  | [] => some depth
  | c :: s =>
      if c = '(' then depthAfter (depth + 1) s
      else if c = ')' then
        match depth with
        | 0 => none
        | d + 1 => depthAfter d s
      else depthAfter depth s

theorem depthAfter_append (depth : Nat) (s t : List Char) :
    depthAfter depth (s ++ t) = (depthAfter depth s).bind (depthAfter · t) := by
  induction s generalizing depth with
  | nil => rfl
  | cons c s ih =>
    simp only [List.cons_append, depthAfter]
    split
    · exact ih _
    · split
      · cases depth with
        | zero => rfl
        | succ d => exact ih d
      · exact ih _

/-- A body ends at the parenthesis behind a text that closes what it opens. -/
theorem splitBody_append {depth d : Nat} {s : List Char} (h : depthAfter depth s = some d)
    (t : List Char) :
    splitBody depth (s ++ t) = (splitBody d t).map fun (body, rest) => (s ++ body, rest) := by
  induction s generalizing depth with
  | nil => cases h; simp
  | cons c s ih =>
    simp only [depthAfter] at h
    simp only [List.cons_append, splitBody]
    split
    · next hc =>
      rw [if_pos hc] at h
      rw [ih h]
      simp [Function.comp_def]
    · next hc =>
      rw [if_neg hc] at h
      split
      · next hc' =>
        rw [if_pos hc'] at h
        cases depth with
        | zero => cases h
        | succ e =>
          dsimp only at h ⊢
          rw [ih h]
          simp [Function.comp_def]
      · next hc' =>
        rw [if_neg hc'] at h
        rw [ih h]
        simp [Function.comp_def]

theorem splitBody_balanced {body : List Char} (h : depthAfter 0 body = some 0) (rest : List Char) :
    splitBody 0 (body ++ ')' :: rest) = some (body, rest) := by
  rw [splitBody_append h]
  simp [splitBody]

theorem header_of_stops {s : List Char} (h : Stops (sameLetter 'C') s) : header s = none := by
  have hk : keyword "CREATE".toList s = none := keyword_of_stops (l := 'C') h
  simp only [header, phrase, hk, Option.bind_eq_bind, Option.bind_none]

theorem ifNotExists_word {n rest : List Char} (hn : Word n) :
    ifNotExists (n ++ ' ' :: '(' :: rest) = none := by
  have hk := keyword_append_stop (w := "IF".toList) (t := ' ' :: '(' :: rest)
    (by simp; decide) n
  cases hi : keyword "IF".toList n with
  | none =>
    rw [hi, Option.map_none] at hk
    simp only [ifNotExists, phrase, hk, Option.bind_eq_bind, Option.bind_none]
  | some r =>
    rw [hi, Option.map_some] at hk
    have hsuf := keyword_suffix hi
    have hphrase : phrase ["IF".toList, "NOT".toList, "EXISTS".toList] (n ++ ' ' :: '(' :: rest) = none := by
      cases r with
      | nil =>
        have hg : gap (' ' :: '(' :: rest) = some ('(' :: rest) :=
          gap_space (by rw [stops_cons]; decide)
        have hnot : keyword "NOT".toList ('(' :: rest) = none := rfl
        simp only [phrase, hk, List.nil_append, hg, hnot, Option.bind_eq_bind, Option.bind_some,
          Option.bind_none]
      | cons c r =>
        have hc : isWord c = true := hn.2 c (hsuf.subset List.mem_cons_self)
        have hg : gap (c :: r ++ ' ' :: '(' :: rest) = none :=
          gap_of_stops (by rw [List.cons_append, stops_cons]; exact isBlank_of_isWord hc)
        simp only [phrase, hk, hg, Option.bind_eq_bind, Option.bind_some, Option.bind_none]
    simp only [ifNotExists, hphrase, Option.bind_eq_bind, Option.bind_none]

/-- What a statement begins with, and what stands behind it. -/
def opening : List Char := "CREATE TABLE ".toList

def ending : List Char := ";\n\n".toList

theorem header_self {n r : List Char} (hn : Word n) :
    header (opening ++ (n ++ ' ' :: '(' :: r)) = some (n, r) := by
  have hb : Stops isBlank (n ++ ' ' :: '(' :: r) :=
    Stops.append hn.1 (hn.stops fun _ => isBlank_of_isWord)
  have hp : phrase ["CREATE".toList, "TABLE".toList]
      (opening ++ (n ++ ' ' :: '(' :: r)) = some (' ' :: (n ++ ' ' :: '(' :: r)) :=
    phrase_two_self (w := "CREATE".toList) (v := "TABLE".toList) (by simp; decide)
  have hname : name (n ++ ' ' :: '(' :: r) = some (n, ' ' :: '(' :: r) :=
    name_append_stop hn (by rw [stops_cons]; decide +kernel) (by rw [stops_cons]; decide)
  have hq : qualifiedName (n ++ ' ' :: '(' :: r) = some (n, ' ' :: '(' :: r) := by
    simp [qualifiedName, hname, mark]
  have hs : spacedMark '(' (' ' :: '(' :: r) = some r := by
    rw [spacedMark, skipBlanks_space (by rw [stops_cons]; decide)]
    rfl
  simp only [header, hp, gap_space hb, ifNotExists_word hn, Option.getD_none, hq, hs,
    Option.bind_eq_bind, Option.bind_some, Option.pure_def]

theorem find?_of_header {h n r : List Char} (hne : h ≠ [])
    (hh : header (h ++ r) = some (n, r)) : find? (h ++ r) = some ⟨[], h, n, r⟩ := by
  cases h with
  | nil => exact absurd rfl hne
  | cons c h =>
    simp only [List.cons_append] at hh ⊢
    unfold find?
    rw [hh]
    have hl : (c :: (h ++ r)).length - r.length = (c :: h).length := by
      simp only [List.length_cons, List.length_append]
      omega
    have ht : (c :: (h ++ r)).take (c :: h).length = c :: h := by
      rw [← List.cons_append, List.take_left]
    simp only [hl, ht]

theorem find?_of_no_header {c : Char} {s : List Char} (h : header (c :: s) = none) :
    find? (c :: s) = (find? s).map fun f => { f with before := c :: f.before } := by
  generalize hr : (find? s).map (fun f => { f with before := c :: f.before }) = r
  unfold find?
  rw [h]
  exact hr

/-- Text in which no header can begin is passed over. -/
theorem find?_append_of_stops {g : List Char} (hg : ∀ c ∈ g, sameLetter 'C' c = false) (s : List Char) :
    find? (g ++ s) = (find? s).map fun f => { f with before := g ++ f.before } := by
  induction g with
  | nil => simp
  | cons c g ih =>
    have hc : header (c :: (g ++ s)) = none :=
      header_of_stops (by rw [stops_cons]; exact hg c List.mem_cons_self)
    rw [List.cons_append, find?_of_no_header hc, ih fun d hd => hg d (List.mem_cons_of_mem _ hd)]
    simp [Function.comp_def]

/-- A statement with the semicolon and the line breaks behind it. -/
def statementText (st : List Char × List Char) : List Char :=
  opening ++ (st.1 ++ ' ' :: '(' :: (st.2 ++ ')' :: ending))

/-- Statements whose names are words and whose bodies close what they open. -/
def WellFormed (sts : List (List Char × List Char)) : Prop :=
  ∀ st ∈ sts, Word st.1 ∧ depthAfter 0 st.2 = some 0

theorem statementText_append (st : List Char × List Char) (s : List Char) :
    statementText st ++ s = opening ++ (st.1 ++ ' ' :: '(' :: (st.2 ++ ')' :: (ending ++ s))) := by
  simp only [statementText, List.append_assoc, List.cons_append]

/-- A statement is cut out whatever follows it. -/
theorem segments_statement {g : List Char} (hg : ∀ c ∈ g, sameLetter 'C' c = false) {n body : List Char}
    (hn : Word n) (hb : depthAfter 0 body = some 0) (rest : List Char) :
    ∃ head, segments (g ++ (opening ++ (n ++ ' ' :: '(' :: (body ++ ')' :: rest)))) =
      .between g :: .statement head n body :: segments rest := by
  have hhead := header_self (r := body ++ ')' :: rest) hn
  have hfind : find? (opening ++ (n ++ ' ' :: '(' :: (body ++ ')' :: rest))) =
      some ⟨[], opening ++ (n ++ [' ', '(']), n, body ++ ')' :: rest⟩ := by
    have := find?_of_header (h := opening ++ (n ++ [' ', '('])) (n := n) (r := body ++ ')' :: rest)
      (List.append_ne_nil_of_left_ne_nil (by decide) _)
    simp only [List.append_assoc, List.cons_append, List.nil_append] at this
    exact this hhead
  refine ⟨_, segments_of_closed (f := ⟨g, opening ++ (n ++ [' ', '(']), n, body ++ ')' :: rest⟩) ?_
    (splitBody_balanced hb _)⟩
  rw [find?_append_of_stops hg, hfind]
  simp

theorem gapFragments_nil : gapFragments [] = [] := rfl

theorem gapFragments_ending : gapFragments ending = [] := rfl

/-- Exactly the statements are found again, and nothing is skipped between them. -/
theorem statements_flatMap {sts : List (List Char × List Char)} (h : WellFormed sts) :
    statements (sts.flatMap statementText) = sts ∧
      skippedStatements (sts.flatMap statementText) = [] := by
  suffices ∀ g, (∀ c ∈ g, sameLetter 'C' c = false) → gapFragments g = [] →
      statements (g ++ sts.flatMap statementText) = sts ∧
        skippedStatements (g ++ sts.flatMap statementText) = [] from
    this [] (by simp) gapFragments_nil
  induction sts with
  | nil =>
    intro g hg hfrag
    have hnone : find? (g ++ []) = none := by
      rw [find?_append_of_stops hg]
      rfl
    simp only [List.flatMap_nil, statements, skippedStatements, segments_of_none hnone]
    simpa [Segment.fragments, Segment.statement?] using hfrag
  | cons st sts ih =>
    intro g hg hfrag
    obtain ⟨hn, hb⟩ := h st List.mem_cons_self
    obtain ⟨head, hs⟩ := segments_statement hg hn hb (ending ++ sts.flatMap statementText)
    rw [← statementText_append] at hs
    obtain ⟨hst, hsk⟩ := ih (fun t ht => h t (List.mem_cons_of_mem _ ht)) ending
      (by decide) gapFragments_ending
    refine ⟨?_, ?_⟩
    · rw [List.flatMap_cons, statements, hs]
      exact congrArg (st :: ·) hst
    · rw [List.flatMap_cons, skippedStatements, hs]
      show gapFragments g ++ ([] ++ skippedStatements _) = []
      rw [hfrag, hsk]
      rfl

/-- The statements before one are found again whatever follows that one. -/
theorem statements_amid {sts : List (List Char × List Char)} (h : WellFormed sts) {n body : List Char}
    (hn : Word n) (hb : depthAfter 0 body = some 0) (rest : List Char) :
    statements (sts.flatMap statementText ++ (opening ++ (n ++ ' ' :: '(' :: (body ++ ')' :: rest)))) =
      sts ++ (n, body) :: statements rest := by
  suffices ∀ g, (∀ c ∈ g, sameLetter 'C' c = false) →
      statements (g ++ (sts.flatMap statementText ++
        (opening ++ (n ++ ' ' :: '(' :: (body ++ ')' :: rest))))) = sts ++ (n, body) :: statements rest from
    this [] (by simp)
  induction sts with
  | nil =>
    intro g hg
    obtain ⟨head, hs⟩ := segments_statement hg hn hb rest
    rw [List.flatMap_nil, List.nil_append, statements, hs]
    rfl
  | cons st sts ih =>
    intro g hg
    obtain ⟨hn, hb⟩ := h st List.mem_cons_self
    obtain ⟨head, hs⟩ := segments_statement hg hn hb (ending ++ (sts.flatMap statementText ++
      (opening ++ (n ++ ' ' :: '(' :: (body ++ ')' :: rest)))))
    rw [← statementText_append] at hs
    rw [List.flatMap_cons, List.append_assoc, statements, hs]
    exact congrArg (st :: ·) (ih (fun t ht => h t (List.mem_cons_of_mem _ ht)) ending (by decide))

end SchemaDesign.Ddl
