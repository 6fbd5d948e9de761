import SchemaDesign.Proofs.Ddl.Account
import SchemaDesign.Proofs.Ddl.Nesting

/-! The walk over a text: a gap, then a statement or an unclosed head, then the next gap, to the end of the
text. What each part must be and what becomes of it is said without the functions that look for it, and
there is one walk only over each text. -/
namespace SchemaDesign.Ddl
open Text

variable {s rest taken table after : List Char} {segs : List Segment}
  {sts : List (List Char × List Char)} {skipped : List Fragment}

/-! Headers -/

/-- No header begins in a text, `rest` being what follows it. -/
def Unheaded (s rest : List Char) : Prop := ∀ b, b <:+ s → b ≠ [] → header (b ++ rest) = none

theorem unheaded_nil (rest : List Char) : Unheaded [] rest :=
  fun _ hb hne => absurd (List.suffix_nil.1 hb) hne

theorem unheaded_cons {c : Char} :
    Unheaded (c :: s) rest ↔ header (c :: (s ++ rest)) = none ∧ Unheaded s rest := by
  constructor
  · intro h
    exact ⟨h (c :: s) (List.suffix_refl _) (List.cons_ne_nil c s),
      fun b hb => h b (hb.trans (List.suffix_cons c s))⟩
  · rintro ⟨hhead, hs⟩ b hb hne
    rcases List.suffix_cons_iff.1 hb with rfl | hb
    · exact hhead
    · exact hs b hb hne

theorem ifNotExists_suffix (s : List Char) : (ifNotExists s).getD s <:+ s := by
  cases h : ifNotExists s with
  | none => exact List.suffix_refl _
  | some r =>
    obtain ⟨t, ht, h⟩ := Option.bind_eq_some_iff.1 h
    exact (gap_suffix h).1.trans (phrase_suffix ht)

/-- A header ends with the parenthesis that opens the body. -/
theorem header_eq_append (h : header s = some (table, after)) : ∃ g, s = g ++ '(' :: after := by
  obtain ⟨r, hr, h⟩ := Option.bind_eq_some_iff.1 h
  obtain ⟨u, hu, h⟩ := Option.bind_eq_some_iff.1 h
  obtain ⟨⟨n, v⟩, hn, h⟩ := Option.bind_eq_some_iff.1 h
  obtain ⟨w, hw, h⟩ := Option.bind_eq_some_iff.1 h
  cases h
  have hmark := (spacedMark_suffix_cons hw).trans (qualifiedName_suffix hn)
  obtain ⟨g, hg⟩ := ((hmark.trans (ifNotExists_suffix u)).trans (gap_suffix hu).1).trans
    (phrase_suffix hr)
  exact ⟨g, hg.symm⟩

/-- A header takes up some of the text. -/
theorem header_eq_some_append (h : header s = some (table, after)) :
    ∃ head, head ≠ [] ∧ s = head ++ after := by
  obtain ⟨g, rfl⟩ := header_eq_append h
  exact ⟨g ++ ['('], List.append_ne_nil_of_right_ne_nil g (List.cons_ne_nil _ _), by simp⟩

theorem head_ne_nil {head : List Char} (h : header (head ++ after) = some (table, after)) :
    head ≠ [] := by
  obtain ⟨head', hne, happend⟩ := header_eq_some_append h
  rwa [List.append_cancel_right happend]

theorem find?_of_unheaded {gap head : List Char} (hgap : Unheaded gap (head ++ after))
    (hhead : header (head ++ after) = some (table, after)) :
    find? (gap ++ (head ++ after)) = some ⟨gap, head, table, after⟩ := by
  induction gap with
  | nil => exact find?_of_header (head_ne_nil hhead) hhead
  | cons c gap ih =>
    obtain ⟨hc, hgap⟩ := unheaded_cons.1 hgap
    rw [List.cons_append, find?_of_no_header hc, ih hgap]
    rfl

/-- The header that is found is the first one. -/
theorem unheaded_of_find? {f : Found} (h : find? s = some f) :
    Unheaded f.before (f.head ++ f.after) ∧ header (f.head ++ f.after) = some (f.table, f.after) := by
  induction s generalizing f with
  | nil => cases h
  | cons c s ih =>
    cases hh : header (c :: s) with
    | some p =>
      obtain ⟨table, after⟩ := p
      obtain ⟨head, hne, happend⟩ := header_eq_some_append hh
      rw [happend] at h hh
      rw [find?_of_header hne hh] at h
      cases h
      exact ⟨unheaded_nil _, hh⟩
    | none =>
      rw [find?_of_no_header hh] at h
      obtain ⟨g, hg, rfl⟩ := Option.map_eq_some_iff.1 h
      obtain ⟨hgap, hhead⟩ := ih hg
      refine ⟨unheaded_cons.2 ⟨?_, hgap⟩, hhead⟩
      rwa [← find?_append hg]

theorem find?_eq_none_iff : find? s = none ↔ Unheaded s [] := by
  induction s with
  | nil => exact iff_of_true rfl (unheaded_nil [])
  | cons c s ih =>
    rw [unheaded_cons, List.append_nil, ← ih]
    cases hh : header (c :: s) with
    | some p =>
      obtain ⟨head, hne, happend⟩ := header_eq_some_append hh
      rw [happend] at hh ⊢
      simp [find?_of_header hne hh]
    | none => simp [find?_of_no_header hh]

/-! Unclosed heads -/

/-- Behind an unclosed head the walk goes on at the next header, behind the next semicolon, or at the end
of the text, whichever comes first. -/
structure Resumes (taken rest : List Char) : Prop where
  unheaded : Unheaded taken rest
  place : (';' ∉ taken ∧ (rest = [] ∨ (header rest).isSome = true)) ∨
    ∃ t, taken = t ++ [';'] ∧ ';' ∉ t

theorem resumes_nil : Resumes [] rest ↔ rest = [] ∨ (header rest).isSome = true := by
  constructor
  · rintro ⟨-, ⟨-, h⟩ | ⟨t, ht, -⟩⟩
    · exact h
    · simp at ht
  · exact fun h => ⟨unheaded_nil _, .inl ⟨List.not_mem_nil, h⟩⟩

theorem resumes_semicolon :
    Resumes (';' :: taken) rest ↔ taken = [] ∧ header (';' :: rest) = none := by
  constructor
  · rintro ⟨hun, ⟨hmem, -⟩ | ⟨t, ht, hmem⟩⟩
    · exact absurd List.mem_cons_self hmem
    · cases t with
      | nil =>
        cases ht
        exact ⟨rfl, (unheaded_cons.1 hun).1⟩
      | cons d t =>
        rw [← (List.cons.inj ht).1] at hmem
        exact absurd List.mem_cons_self hmem
  · rintro ⟨rfl, hhead⟩
    exact ⟨unheaded_cons.2 ⟨hhead, unheaded_nil _⟩, .inr ⟨[], rfl, List.not_mem_nil⟩⟩

theorem resumes_cons {c : Char} (hc : c ≠ ';') :
    Resumes (c :: taken) rest ↔ header (c :: (taken ++ rest)) = none ∧ Resumes taken rest := by
  have hplace : ((';' ∉ c :: taken ∧ (rest = [] ∨ (header rest).isSome = true)) ∨
      ∃ t, c :: taken = t ++ [';'] ∧ ';' ∉ t) ↔
      ((';' ∉ taken ∧ (rest = [] ∨ (header rest).isSome = true)) ∨ ∃ t, taken = t ++ [';'] ∧ ';' ∉ t) := by
    have hmem : ';' ∉ c :: taken ↔ ';' ∉ taken := by simp [hc.symm]
    refine or_congr (by rw [hmem]) ⟨?_, ?_⟩
    · rintro ⟨t, ht, hmem⟩
      cases t with
      | nil => exact absurd (List.cons.inj ht).1 hc
      | cons d t => exact ⟨t, (List.cons.inj ht).2, fun h => hmem (List.mem_cons_of_mem _ h)⟩
    · rintro ⟨t, rfl, ht⟩
      exact ⟨c :: t, rfl, by simpa [hc.symm] using ht⟩
  constructor
  · rintro ⟨hun, hp⟩
    obtain ⟨hhead, hun⟩ := unheaded_cons.1 hun
    exact ⟨hhead, hun, hplace.1 hp⟩
  · rintro ⟨hhead, hun, hp⟩
    exact ⟨unheaded_cons.2 ⟨hhead, hun⟩, hplace.2 hp⟩

theorem splitUnclosed_eq_iff :
    splitUnclosed s = (taken, rest) ↔ s = taken ++ rest ∧ Resumes taken rest := by
  constructor
  · intro h
    have happend := splitUnclosed_append s
    rw [h] at happend
    refine ⟨happend.symm, ?_⟩
    clear happend
    induction s generalizing taken with
    | nil =>
      cases h
      exact resumes_nil.2 (.inl rfl)
    | cons c s ih =>
      have happend := splitUnclosed_append s
      unfold splitUnclosed at h
      split at h
      · next hh =>
        cases h
        exact resumes_nil.2 (.inr hh)
      · next hh =>
        have hh : header (c :: s) = none := by simpa using hh
        split at h
        · next hc =>
          cases h
          rw [hc] at hh ⊢
          exact resumes_semicolon.2 ⟨rfl, hh⟩
        · next hc =>
          cases h
          refine (resumes_cons hc).2 ⟨?_, ih rfl⟩
          rwa [happend]
  · rintro ⟨rfl, h⟩
    induction taken with
    | nil =>
      rcases resumes_nil.1 h with rfl | hhead
      · rfl
      · cases rest with
        | nil => rfl
        | cons c rest => rw [List.nil_append, splitUnclosed, if_pos hhead]
    | cons c taken ih =>
      by_cases hc : c = ';'
      · subst hc
        obtain ⟨rfl, hhead⟩ := resumes_semicolon.1 h
        rw [List.cons_append, List.nil_append, splitUnclosed, hhead]
        simp
      · obtain ⟨hhead, htaken⟩ := (resumes_cons hc).1 h
        rw [List.cons_append, splitUnclosed, hhead]
        simp [hc, ih htaken]

/-! Gaps -/

/-- The fragments that report a gap: of its parts between semicolons those that are not blank, trimmed and
in order. -/
def Reports (gap : List Char) (skipped : List Fragment) : Prop :=
  ∃ parts, parts ≠ [] ∧ (∀ p ∈ parts, ';' ∉ p) ∧ gap = [';'].intercalate parts ∧
    skipped = (parts.filter (·.any (!isBlank ·))).map fun p => ⟨String.ofList (trim p), .notCreateTable⟩

theorem reports_iff {gap : List Char} {skipped : List Fragment} :
    Reports gap skipped ↔ skipped = gapFragments gap := by
  have hblank (p : List Char) : (!(trim p).isEmpty) = p.any (!isBlank ·) := by
    rw [Bool.eq_iff_iff, Bool.not_eq_true', List.isEmpty_eq_false_iff, ne_eq, trim_eq_nil_iff]
    simp
  have hfragments : gapFragments gap = ((gap.splitOn ';').filter (·.any (!isBlank ·))).map
      fun p => ⟨String.ofList (trim p), .notCreateTable⟩ := by
    rw [gapFragments, List.filter_map, List.map_map, List.splitOn_eq_splitOnP]
    simp only [Function.comp_def, hblank]
  rw [hfragments]
  constructor
  · rintro ⟨parts, hne, hparts, rfl, rfl⟩
    rw [List.splitOn_intercalate ';' hparts hne]
  · rintro rfl
    exact ⟨gap.splitOn ';', List.splitOn_ne_nil _ _, fun p => notMem_of_mem_splitOn,
      (List.intercalate_splitOn ';').symm, rfl⟩

/-! Walks -/

/-- A nested text before a closing parenthesis, and none shorter is that. -/
structure Closes (body rest : List Char) : Prop where
  nested : Nested body
  shortest : ∀ body' rest', body ++ ')' :: rest = body' ++ ')' :: rest' → Nested body' →
    body.length ≤ body'.length

theorem closes_iff {body : List Char} : Closes body rest ↔ Nested body := by
  refine ⟨Closes.nested, fun h => ⟨h, fun body' rest' happend h' => ?_⟩⟩
  rw [(h.body_unique h' happend).1]

/-- A walk over a text: its segments, the statements that are taken out, and what is reported. -/
inductive Walk : List Char → List Segment → List (List Char × List Char) → List Fragment → Prop
  | last {gap skipped} (unheaded : Unheaded gap []) (reports : Reports gap skipped) :
      Walk gap [.between gap] [] skipped
  | statement {gap skipped head table body rest segs sts later}
      (unheaded : Unheaded gap (head ++ (body ++ ')' :: rest))) (reports : Reports gap skipped)
      (header : header (head ++ (body ++ ')' :: rest)) = some (table, body ++ ')' :: rest))
      (closes : Closes body rest) (onward : Walk rest segs sts later) :
      Walk (gap ++ (head ++ (body ++ ')' :: rest)))
        (.between gap :: .statement head table body :: segs) ((table, body) :: sts) (skipped ++ later)
  | unclosed {gap skipped head table taken rest segs sts later}
      (unheaded : Unheaded gap (head ++ (taken ++ rest))) (reports : Reports gap skipped)
      (header : header (head ++ (taken ++ rest)) = some (table, taken ++ rest))
      (endless : ∀ body rest', taken ++ rest = body ++ ')' :: rest' → ¬ Nested body)
      (resumes : Resumes taken rest) (onward : Walk rest segs sts later) :
      Walk (gap ++ (head ++ (taken ++ rest))) (.between gap :: .unclosed (head ++ taken) :: segs) sts
        (skipped ++ ⟨String.ofList (unclosedText (head ++ taken)), .unbalanced⟩ :: later)

theorem skippedStatements_of_none (h : find? s = none) : skippedStatements s = gapFragments s := by
  rw [skippedStatements, segments_of_none h]
  exact List.append_nil _

theorem skippedStatements_of_closed {f : Found} {body : List Char} (h : find? s = some f)
    (hb : splitBody 0 f.after = some (body, rest)) :
    skippedStatements s = gapFragments f.before ++ skippedStatements rest := by
  rw [skippedStatements, segments_of_closed h hb]
  rfl

theorem skippedStatements_of_unclosed {f : Found} (h : find? s = some f)
    (hb : splitBody 0 f.after = none) :
    skippedStatements s = gapFragments f.before ++
      ⟨String.ofList (unclosedText (f.head ++ (splitUnclosed f.after).1)), .unbalanced⟩ ::
        skippedStatements (splitUnclosed f.after).2 := by
  rw [skippedStatements, segments_of_unclosed h hb]
  rfl

theorem walk_segments (s : List Char) : Walk s (segments s) (statements s) (skippedStatements s) := by
  refine segments_induction
    (P := fun s => Walk s (segments s) (statements s) (skippedStatements s)) ?_ ?_ ?_ s
  · intro s hf
    rw [segments_of_none hf, statements_of_none hf, skippedStatements_of_none hf]
    exact .last (find?_eq_none_iff.1 hf) (reports_iff.2 rfl)
  · intro s f body rest hf hb ih
    rw [segments_of_closed hf hb, statements_of_closed hf hb, skippedStatements_of_closed hf hb]
    have hs := find?_append hf
    obtain ⟨hgap, hhead⟩ := unheaded_of_find? hf
    obtain ⟨hafter, hbody⟩ := splitBody_eq_some_iff.1 hb
    rw [hafter] at hs hgap hhead
    subst hs
    exact .statement hgap (reports_iff.2 rfl) hhead (closes_iff.2 hbody) ih
  · intro s f hf hb ih
    rw [segments_of_unclosed hf hb, statements_of_unclosed hf hb, skippedStatements_of_unclosed hf hb]
    have hs := find?_append hf
    obtain ⟨hgap, hhead⟩ := unheaded_of_find? hf
    obtain ⟨hafter, hresumes⟩ := splitUnclosed_eq_iff.1 (Eq.refl (splitUnclosed f.after))
    have hendless := splitBody_eq_none.1 hb
    rw [hafter] at hs hgap hhead hendless
    subst hs
    exact .unclosed hgap (reports_iff.2 rfl) hhead hendless hresumes ih

/-- Nothing of a walk is left to choice. -/
theorem Walk.eq (h : Walk s segs sts skipped) :
    segs = segments s ∧ sts = statements s ∧ skipped = skippedStatements s := by
  induction h with
  | last hgap hreports =>
    have hfind := find?_eq_none_iff.2 hgap
    rw [segments_of_none hfind, statements_of_none hfind, skippedStatements_of_none hfind]
    exact ⟨rfl, rfl, reports_iff.1 hreports⟩
  | @statement _ _ _ _ body rest _ _ _ hgap hreports hhead hcloses _ ih =>
    have hfind := find?_of_unheaded hgap hhead
    have hbody : splitBody 0 (body ++ ')' :: rest) = some (body, rest) :=
      splitBody_eq_some_iff.2 ⟨rfl, hcloses.nested⟩
    rw [segments_of_closed hfind hbody, statements_of_closed hfind hbody,
      skippedStatements_of_closed hfind hbody, ← ih.1, ← ih.2.1, ← ih.2.2, reports_iff.1 hreports]
    exact ⟨rfl, rfl, rfl⟩
  | @unclosed _ _ _ _ taken rest _ _ _ hgap hreports hhead hendless hresumes _ ih =>
    have hfind := find?_of_unheaded hgap hhead
    have hnone := splitBody_eq_none.2 hendless
    have htaken : splitUnclosed (taken ++ rest) = (taken, rest) :=
      splitUnclosed_eq_iff.2 ⟨rfl, hresumes⟩
    rw [segments_of_unclosed hfind hnone, statements_of_unclosed hfind hnone,
      skippedStatements_of_unclosed hfind hnone, htaken, ← ih.1, ← ih.2.1, ← ih.2.2,
      reports_iff.1 hreports]
    exact ⟨rfl, rfl, rfl⟩

/-- The places at which the walk comes to a gap, the text beginning at `place`. -/
def passes (place : Nat) : List Segment → List Nat
  | [] => []
  | .between text :: segs => place :: passes (place + text.length) segs
  | .statement head table body :: segs =>
      passes (place + (Segment.statement head table body).text.length) segs
  | .unclosed text :: segs => passes (place + text.length) segs

/-- Places that increase from `next` to `last` do so with one more before them. -/
theorem places_cons {place next last : Nat} {qs : List Nat} (hplace : place < next) (hlast : place ≤ last)
    (h : qs.Pairwise (· < ·) ∧ ∀ q ∈ qs, next ≤ q ∧ q ≤ last) :
    (place :: qs).Pairwise (· < ·) ∧ ∀ q ∈ place :: qs, place ≤ q ∧ q ≤ last := by
  rw [List.pairwise_cons, List.forall_mem_cons]
  refine ⟨⟨fun q hq => ?_, h.1⟩, ⟨le_refl _, hlast⟩, fun q hq => ?_⟩
  · exact lt_of_lt_of_le hplace (h.2 q hq).1
  · exact ⟨hplace.le.trans (h.2 q hq).1, (h.2 q hq).2⟩

/-- Each pass takes up at least the header that it finds, so the next one begins further on. -/
theorem Walk.places (h : Walk s segs sts skipped) (place : Nat) :
    (passes place segs).Pairwise (· < ·) ∧ ∀ q ∈ passes place segs, place ≤ q ∧ q ≤ place + s.length := by
  induction h generalizing place with
  | last => simp [passes]
  | @statement gap _ head table body rest segs _ _ _ _ _ _ _ ih =>
    have hlength : place + gap.length + (Segment.statement head table body).text.length + rest.length =
        place + (gap ++ (head ++ (body ++ ')' :: rest))).length := by
      simp only [Segment.text, List.length_append, List.length_cons, List.length_nil]
      omega
    have hnext : 0 < (Segment.statement head table body).text.length := by
      simp only [Segment.text, List.length_append, List.length_cons]
      omega
    have honward := ih (place + gap.length + (Segment.statement head table body).text.length)
    rw [hlength] at honward
    exact places_cons (by omega) (Nat.le_add_right _ _) honward
  | @unclosed gap _ head table taken rest segs _ _ _ _ hhead _ _ _ ih =>
    have hlength : place + gap.length + (head ++ taken).length + rest.length =
        place + (gap ++ (head ++ (taken ++ rest))).length := by
      simp only [List.length_append]
      omega
    have hnext : 0 < (head ++ taken).length :=
      List.length_pos_iff.2 (List.append_ne_nil_of_left_ne_nil (head_ne_nil hhead) taken)
    have honward := ih (place + gap.length + (head ++ taken).length)
    rw [hlength] at honward
    exact places_cons (by omega) (Nat.le_add_right _ _) honward

/-- Every text has one walk, and that is how it is cut. The segments of the walk make up the text, and
each pass begins behind the one before it and within the text, so that the walk ends. -/
theorem walk_exact (s : List Char) :
    (∀ segs sts skipped, Walk s segs sts skipped ↔
      segs = segments s ∧ sts = statements s ∧ skipped = skippedStatements s) ∧
    (segments s).flatMap (·.text) = s ∧
    (passes 0 (segments s)).Pairwise (· < ·) ∧ ∀ place ∈ passes 0 (segments s), place ≤ s.length := by
  have hwalk := walk_segments s
  obtain ⟨hsorted, hbounds⟩ := hwalk.places 0
  refine ⟨fun segs sts skipped => ⟨Walk.eq, ?_⟩, flatMap_text_segments s, hsorted, fun place hplace => ?_⟩
  · rintro ⟨rfl, rfl, rfl⟩
    exact hwalk
  · have := hbounds place hplace
    omega

end SchemaDesign.Ddl
