import Mathlib.Data.List.DropRight
import SchemaDesign.Proofs.Ddl.Walk

/-! A semicolon parts a text. No header reaches across one, so the walk over two texts with a semicolon
between them is a walk over the first and then one over the second, and a statement that never closes is
over at its semicolon. -/
namespace SchemaDesign.Ddl
open Text

variable {m : Char} {s t w table after rest : List Char} {segs : List Segment}
  {sts : List (List Char × List Char)} {skipped : List Fragment}

/-! What a header cannot take up before its parenthesis -/

/-- A character that ends every word, name and gap, so that nothing that is read before it depends on what
follows. -/
structure Barrier (m : Char) : Prop where
  blank : isBlank m = false
  quote : isQuote m = false
  word : isWord m = false
  point : m ≠ '.'
  letters : ∀ w ∈ ["CREATE", "TABLE", "IF", "NOT", "EXISTS"], ∀ l ∈ w.toList, sameLetter l m = false

theorem barrier_semicolon : Barrier ';' :=
  ⟨by decide, by decide, by decide +kernel, by decide, by decide⟩

theorem barrier_parenthesis : Barrier '(' :=
  ⟨by decide, by decide, by decide +kernel, by decide, by decide⟩

section Barrier

theorem dropWhile_append_cons {p : Char → Bool} (hm : p m = false) (s t : List Char) :
    (s ++ m :: t).dropWhile p = s.dropWhile p ++ m :: t := by
  induction s with
  | nil => simp [hm]
  | cons c s ih => by_cases hc : p c = true <;> simp [hc, ih]

theorem takeWhile_append_cons {p : Char → Bool} (hm : p m = false) (s t : List Char) :
    (s ++ m :: t).takeWhile p = s.takeWhile p := by
  induction s with
  | nil => simp [hm]
  | cons c s ih => by_cases hc : p c = true <;> simp [hc, ih]

theorem run_append_cons {p : Char → Bool} (hm : p m = false) (s t : List Char) :
    run p (s ++ m :: t) = (run p s).map (Prod.map id (· ++ m :: t)) := by
  unfold run
  rw [takeWhile_append_cons hm, dropWhile_append_cons hm]
  split <;> rfl

theorem gap_append_cons (hm : isBlank m = false) (s t : List Char) :
    gap (s ++ m :: t) = (gap s).map (· ++ m :: t) := by
  cases s with
  | nil => simp [gap, hm]
  | cons c s => by_cases hc : isBlank c = true <;> simp [gap, hc, skipBlanks, dropWhile_append_cons hm]

theorem mark_append_cons {p : Char} (hm : m ≠ p) (s t : List Char) :
    mark p (s ++ m :: t) = (mark p s).map (· ++ m :: t) := by
  cases s with
  | nil => simp [mark, hm]
  | cons c s => by_cases hc : c = p <;> simp [mark, hc]

variable (hm : Barrier m)

include hm

theorem Barrier.skipBlanks_append (s t : List Char) :
    skipBlanks (s ++ m :: t) = skipBlanks s ++ m :: t := dropWhile_append_cons hm.blank s t

theorem Barrier.gap_append (s t : List Char) :
    gap (s ++ m :: t) = (gap s).map (· ++ m :: t) := gap_append_cons hm.blank s t

theorem Barrier.skipQuote_append (s t : List Char) :
    skipQuote (s ++ m :: t) = skipQuote s ++ m :: t := by
  cases s with
  | nil => simp [skipQuote, hm.quote]
  | cons c s => by_cases hc : isQuote c = true <;> simp [skipQuote, hc]

theorem Barrier.name_append (s t : List Char) :
    name (s ++ m :: t) = (name s).map (Prod.map id (· ++ m :: t)) := by
  rw [name, hm.skipQuote_append, run_append_cons hm.word, name, Option.map_map, Option.map_map]
  apply congrArg (Option.map · _)
  funext p
  simp [hm.skipQuote_append]

theorem Barrier.keyword_append {w : String} (hw : w ∈ ["CREATE", "TABLE", "IF", "NOT", "EXISTS"])
    (s t : List Char) : keyword w.toList (s ++ m :: t) = (keyword w.toList s).map (· ++ m :: t) :=
  keyword_append_stop (fun l hl => stops_cons.2 (hm.letters w hw l hl)) s

theorem Barrier.createTable_append (s t : List Char) :
    phrase ["CREATE".toList, "TABLE".toList] (s ++ m :: t) =
      (phrase ["CREATE".toList, "TABLE".toList] s).map (· ++ m :: t) := by
  rw [phrase, hm.keyword_append (by decide)]
  refine map_bind_congr fun r => ?_
  rw [hm.gap_append]
  exact map_bind_congr fun u => hm.keyword_append (by decide) u t

theorem Barrier.ifNotExists_append (s t : List Char) :
    ifNotExists (s ++ m :: t) = (ifNotExists s).map (· ++ m :: t) := by
  have hphrase : phrase ["IF".toList, "NOT".toList, "EXISTS".toList] (s ++ m :: t) =
      (phrase ["IF".toList, "NOT".toList, "EXISTS".toList] s).map (· ++ m :: t) := by
    rw [phrase, hm.keyword_append (by decide)]
    refine map_bind_congr fun r => ?_
    rw [hm.gap_append]
    refine map_bind_congr fun u => ?_
    rw [phrase, hm.keyword_append (by decide)]
    refine map_bind_congr fun v => ?_
    rw [hm.gap_append]
    exact map_bind_congr fun x => hm.keyword_append (by decide) x t
  rw [ifNotExists, hphrase]
  exact map_bind_congr fun r => hm.gap_append r t

theorem Barrier.qualifiedName_append (s t : List Char) :
    qualifiedName (s ++ m :: t) = (qualifiedName s).map (Prod.map id (· ++ m :: t)) := by
  rw [qualifiedName, hm.name_append]
  refine map_bind_congr fun p => ?_
  obtain ⟨first, r⟩ := p
  have hsecond : (mark '.' (r ++ m :: t)).bind name =
      ((mark '.' r).bind name).map (Prod.map id (· ++ m :: t)) := by
    rw [mark_append_cons hm.point]
    exact map_bind_congr fun u => hm.name_append u t
  simp only [Prod.map, id_eq, hsecond]
  cases (mark '.' r).bind name <;> rfl

end Barrier

/-- What a header is up to the blanks before its parenthesis: the table's name and the text behind it. -/
def heading? (s : List Char) : Option (List Char × List Char) := do
  let s ← gap (← phrase ["CREATE".toList, "TABLE".toList] s)
  qualifiedName ((ifNotExists s).getD s)

theorem header_eq (s : List Char) :
    header s = (heading? s).bind fun p => (spacedMark '(' p.2).map (p.1, ·) := by
  unfold header heading?
  cases hp : phrase ["CREATE".toList, "TABLE".toList] s with
  | none => rfl
  | some r =>
    cases hg : gap r with
    | none => simp [hg]
    | some u =>
      cases hq : qualifiedName ((ifNotExists u).getD u) with
      | none => simp [hg, hq]
      | some p => cases hs : spacedMark '(' p.2 <;> simp [hg, hq, hs]

theorem Barrier.heading?_append (hm : Barrier m) (s t : List Char) :
    heading? (s ++ m :: t) = (heading? s).map (Prod.map id (· ++ m :: t)) := by
  unfold heading?
  rw [hm.createTable_append]
  refine map_bind_congr fun r => ?_
  rw [hm.gap_append]
  refine map_bind_congr fun u => ?_
  rw [hm.ifNotExists_append, ← hm.qualifiedName_append]
  cases ifNotExists u <;> rfl

/-- No header reaches across a semicolon. -/
theorem header_append_semicolon (s t : List Char) :
    header (s ++ ';' :: t) = (header s).map (Prod.map id (· ++ ';' :: t)) := by
  rw [header_eq, barrier_semicolon.heading?_append, header_eq]
  refine map_bind_congr fun p => ?_
  have hmark : spacedMark '(' (p.2 ++ ';' :: t) = (spacedMark '(' p.2).map (· ++ ';' :: t) := by
    rw [spacedMark, barrier_semicolon.skipBlanks_append, mark_append_cons (by decide), spacedMark]
  simp only [Prod.map, id_eq, hmark, Option.map_map, Function.comp_def]

/-- A header is the same whatever stands behind it. -/
theorem header_append {head : List Char} (h : header (head ++ after) = some (table, after))
    (rest : List Char) : header (head ++ rest) = some (table, rest) := by
  obtain ⟨g, hg⟩ := header_eq_append h
  rw [List.append_cons] at hg
  obtain rfl := List.append_cancel_right hg
  have hheader (t : List Char) : header (g ++ ['('] ++ t) =
      (heading? g).bind fun p => (mark '(' (skipBlanks p.2 ++ '(' :: t)).map (p.1, ·) := by
    rw [List.append_assoc, List.singleton_append, header_eq, barrier_parenthesis.heading?_append,
      Option.bind_map]
    simp only [Function.comp_def, Prod.map, id_eq, spacedMark, barrier_parenthesis.skipBlanks_append]
  rw [hheader] at h ⊢
  obtain ⟨⟨n, r⟩, hn, h⟩ := Option.bind_eq_some_iff.1 h
  rw [hn, Option.bind_some]
  -- the parenthesis that ends the header is the first mark behind the name
  cases hr : skipBlanks r with
  | nil =>
    rw [hr] at h
    cases h
    rfl
  | cons c u =>
    rw [hr] at h
    obtain ⟨v, hv, he⟩ := Option.map_eq_some_iff.1 h
    cases he
    have hlength := (mark_suffix hv).length_le
    rw [List.cons_append, mark] at hv
    split at hv
    · have := congrArg List.length (Option.some.inj hv)
      simp only [List.length_append, List.length_cons] at this
      omega
    · cases hv

/-! Gaps -/

theorem Unheaded.append_semicolon (hs : Unheaded s []) (ht : Unheaded t rest) :
    Unheaded (s ++ ';' :: t) rest := by
  induction s with
  | nil => exact unheaded_cons.2 ⟨header_append_semicolon [] (t ++ rest), ht⟩
  | cons c s ih =>
    obtain ⟨hc, hs⟩ := unheaded_cons.1 hs
    refine unheaded_cons.2 ⟨?_, ih hs⟩
    rw [List.append_nil] at hc
    have hhead := header_append_semicolon (c :: s) (t ++ rest)
    rw [hc] at hhead
    simpa using hhead

/-- A text in which no header begins has none before a semicolon either. -/
theorem Unheaded.before_semicolon (h : Unheaded s rest) (t : List Char) :
    Unheaded s (rest ++ ';' :: t) := by
  intro b hb hne
  rw [← List.append_assoc, header_append_semicolon, h b hb hne]
  rfl

theorem gapFragments_append (s t : List Char) :
    gapFragments (s ++ ';' :: t) = gapFragments s ++ gapFragments t := by
  simp [gapFragments, List.splitOnP_append_cons]

theorem Reports.append_semicolon {later : List Fragment} (hs : Reports s skipped)
    (ht : Reports t later) : Reports (s ++ ';' :: t) (skipped ++ later) := by
  rw [reports_iff] at hs ht ⊢
  rw [gapFragments_append, hs, ht]

/-! Walks -/

/-- A text without a header goes into the first gap of the walk behind it. -/
theorem Walk.after_gap {later : List Fragment} (hs : Unheaded s []) (hreports : Reports s skipped)
    (h : Walk t segs sts later) : ∃ segs', Walk (s ++ ';' :: t) segs' sts (skipped ++ later) := by
  cases h with
  | last hgap hlater => exact ⟨_, .last (hs.append_semicolon hgap) (hreports.append_semicolon hlater)⟩
  | statement hgap hlater hhead hcloses honward =>
    have hwalk := Walk.statement (hs.append_semicolon hgap) (hreports.append_semicolon hlater) hhead
      hcloses honward
    simp only [List.append_assoc, List.cons_append] at hwalk ⊢
    exact ⟨_, hwalk⟩
  | unclosed hgap hlater hhead hendless hresumes honward =>
    have hwalk := Walk.unclosed (hs.append_semicolon hgap) (hreports.append_semicolon hlater) hhead
      hendless hresumes honward
    simp only [List.append_assoc, List.cons_append] at hwalk ⊢
    exact ⟨_, hwalk⟩

/-- A walk on which every statement closes, and one behind a semicolon. -/
theorem Walk.append_semicolon {segs' : List Segment} {sts' : List (List Char × List Char)}
    {later : List Fragment} (hs : Walk s segs sts skipped)
    (hclosed : ∀ f ∈ skipped, f.reason ≠ .unbalanced) (ht : Walk t segs' sts' later) :
    ∃ segs'', Walk (s ++ ';' :: t) segs'' (sts ++ sts') (skipped ++ later) := by
  induction hs with
  | last hgap hreports => exact ht.after_gap hgap hreports
  | @statement gap _ head _ body rest _ _ _ hgap hreports hhead hcloses _ ih =>
    obtain ⟨segs'', honward⟩ := ih fun f hf => hclosed f (List.mem_append_right _ hf)
    have hgap : Unheaded gap (head ++ (body ++ ')' :: (rest ++ ';' :: t))) := by
      simpa using hgap.before_semicolon t
    have hwalk := Walk.statement hgap hreports (header_append hhead _) (closes_iff.2 hcloses.nested)
      honward
    simp only [List.append_assoc, List.cons_append] at hwalk ⊢
    exact ⟨_, hwalk⟩
  | unclosed => exact absurd rfl (hclosed _ (List.mem_append_right _ List.mem_cons_self))

/-- Texts with a semicolon between them are cut apart there: the statements of both, and what is skipped
of both. Only a statement that never closes could reach from the first into the second. -/
theorem statements_append_semicolon (h : ∀ f ∈ skippedStatements s, f.reason ≠ .unbalanced)
    (t : List Char) :
    statements (s ++ ';' :: t) = statements s ++ statements t ∧
      skippedStatements (s ++ ';' :: t) = skippedStatements s ++ skippedStatements t := by
  obtain ⟨segs, hwalk⟩ := (walk_segments s).append_semicolon h (walk_segments t)
  obtain ⟨-, hstatements, hskipped⟩ := hwalk.eq
  exact ⟨hstatements.symm, hskipped.symm⟩

/-- Half a header before the semicolon and the other half behind it make up no statement, and of the
second text a statement may stay open. -/
theorem statements_append_semicolon_halfHeader :
    (∀ f ∈ skippedStatements "CREATE TABLE a (id INT), x) CREATE TABLE".toList, f.reason ≠ .unbalanced) ∧
      statements ("CREATE TABLE a (id INT), x) CREATE TABLE".toList ++
        ';' :: " b (id INT); CREATE TABLE c (id INT".toList) = [("a".toList, "id INT".toList)] ∧
      skippedStatements ("CREATE TABLE a (id INT), x) CREATE TABLE".toList ++
        ';' :: " b (id INT); CREATE TABLE c (id INT".toList) =
        [⟨", x) CREATE TABLE", .notCreateTable⟩, ⟨"b (id INT)", .notCreateTable⟩,
          ⟨"CREATE TABLE c (id INT", .unbalanced⟩] := by
  have hclosed : ∀ f ∈ skippedStatements "CREATE TABLE a (id INT), x) CREATE TABLE".toList,
      f.reason ≠ .unbalanced := by decide +kernel
  obtain ⟨hstatements, hskipped⟩ :=
    statements_append_semicolon hclosed " b (id INT); CREATE TABLE c (id INT".toList
  refine ⟨hclosed, ?_, ?_⟩
  · rw [hstatements]
    decide +kernel
  · rw [hskipped]
    decide +kernel

/-! Statements that never close -/

theorem exists_depthAfter {depth : Nat} (h : Covered depth s) : ∃ d, depthAfter depth s = some d := by
  have htotal := h s List.prefix_rfl
  refine ⟨depth + s.count '(' - s.count ')', depthAfter_eq_some.2 ⟨h, ?_⟩⟩
  omega

theorem Covered.mono {depth d : Nat} (h : Covered depth s) (hle : depth ≤ d) : Covered d s := by
  intro p hp
  have := h p hp
  omega

/-- Behind an open parenthesis, texts that close no more than they open leave it open. -/
theorem splitBody_of_covered (hw : Covered 0 w) (hs : Covered 0 s) :
    splitBody 0 (w ++ ';' :: s) = none := by
  obtain ⟨d, hd⟩ := exists_depthAfter hw
  obtain ⟨e, he⟩ := exists_depthAfter (hs.mono (Nat.zero_le d))
  have hdepth : depthAfter 0 (w ++ ';' :: s) = some e := by
    rw [depthAfter_append, hd]
    exact he
  have hsplit := splitBody_append hdepth []
  rw [List.append_nil] at hsplit
  rw [hsplit]
  rfl

/-- A semicolon at the end of a statement is not reported with it. -/
theorem unclosedText_append_semicolon (h : s.getLast? ≠ some ';') :
    unclosedText (s ++ [';']) = trim s := by
  have hstart : trimStart (s ++ [';']) = trimStart s ++ [';'] :=
    dropWhile_append_cons barrier_semicolon.blank s []
  have htrim : trim (s ++ [';']) = trimStart s ++ [';'] := by
    simp [trim, hstart, trimEnd, barrier_semicolon.blank]
  have hlast : Stops (· == ';') (trimStart s).reverse := by
    intro c hc
    by_contra hsemicolon
    obtain rfl : c = ';' := by simpa using hsemicolon
    rw [List.head?_reverse] at hc
    obtain ⟨b, hb⟩ := List.dropWhile_suffix (l := s) isBlank
    apply h
    rw [← hb, List.getLast?_append]
    exact congrArg (Option.or · b.getLast?) hc
  have hdrop : (trimStart s).reverse.dropWhile (· == ';') = (trimStart s).reverse :=
    dropWhile_of_stops hlast
  have hagain : trim (trimStart s) = trim s := congrArg trimEnd (List.dropWhile_idempotent _ s)
  have hreverse : (trimStart s ++ [';']).reverse = ';' :: (trimStart s).reverse := by simp
  rw [unclosedText, htrim, hreverse, List.dropWhile_cons_of_pos (by decide), hdrop,
    List.reverse_reverse, hagain]

/-- A head that is followed by no parenthesis that closes it takes up the text to its semicolon, if no
header begins before that. -/
theorem Walk.unclosed_semicolon {head : List Char} (hhead : header head = some (table, []))
    (hw : ';' ∉ w) (hcovered : Covered 0 w) (hun : Unheaded w []) (hs : Covered 0 s)
    (h : Walk s segs sts skipped) :
    Walk (head ++ w ++ ';' :: s) (.between [] :: .unclosed (head ++ (w ++ [';'])) :: segs) sts
      (⟨String.ofList (trim (head ++ w)), .unbalanced⟩ :: skipped) := by
  have hempty : Unheaded [] (head ++ (w ++ [';'] ++ s)) := unheaded_nil _
  have hreports : Reports [] [] := reports_iff.2 rfl
  have hopens : header (head ++ (w ++ [';'] ++ s)) = some (table, w ++ [';'] ++ s) := by
    rw [← List.append_nil head] at hhead
    exact header_append hhead _
  have hendless : ∀ body rest, w ++ [';'] ++ s = body ++ ')' :: rest → ¬ Nested body := by
    rw [← splitBody_eq_none, List.append_assoc]
    exact splitBody_of_covered hcovered hs
  have hresumes : Resumes (w ++ [';']) s := by
    refine ⟨?_, .inr ⟨w, rfl, hw⟩⟩
    exact hun.append_semicolon (unheaded_nil s)
  have hlast : (head ++ w).getLast? ≠ some ';' := by
    obtain ⟨g, rfl⟩ := header_eq_append hhead
    intro hsemicolon
    cases w with
    | nil => simp at hsemicolon
    | cons c w =>
      rw [List.getLast?_append_of_ne_nil _ (List.cons_ne_nil c w)] at hsemicolon
      exact hw (List.mem_of_getLast? hsemicolon)
  have hwalk := Walk.unclosed hempty hreports hopens hendless hresumes h
  rw [← List.append_assoc head w, unclosedText_append_semicolon hlast] at hwalk
  simpa using hwalk

/-- A statement that never closes does not swallow what follows its semicolon: it is reported with its
text, and the rest is cut as if it stood alone. -/
theorem statements_unclosed_semicolon {head : List Char} (hhead : header head = some (table, []))
    (hw : ';' ∉ w) (hcovered : Covered 0 w) (hun : find? w = none) (hs : Covered 0 s) :
    statements (head ++ w ++ ';' :: s) = statements s ∧
      skippedStatements (head ++ w ++ ';' :: s) =
        ⟨String.ofList (trim (head ++ w)), .unbalanced⟩ :: skippedStatements s := by
  have hwalk := (walk_segments s).unclosed_semicolon hhead hw hcovered (find?_eq_none_iff.1 hun) hs
  obtain ⟨-, hstatements, hskipped⟩ := hwalk.eq
  exact ⟨hstatements.symm, hskipped.symm⟩

/-- A check that opens a parenthesis too many, with a statement behind it that is kept. -/
theorem statements_unclosed_semicolon_openCheck :
    statements ("CREATE TABLE u (".toList ++ "id INT, CHECK ((id > 0)\n".toList ++
        ';' :: " CREATE TABLE t (id INT); DROP u".toList) = [("t".toList, "id INT".toList)] ∧
      skippedStatements ("CREATE TABLE u (".toList ++ "id INT, CHECK ((id > 0)\n".toList ++
        ';' :: " CREATE TABLE t (id INT); DROP u".toList) =
        [⟨"CREATE TABLE u (id INT, CHECK ((id > 0)", .unbalanced⟩, ⟨"DROP u", .notCreateTable⟩] := by
  have hcovered : Covered 0 "id INT, CHECK ((id > 0)\n".toList :=
    (depthAfter_eq_some.1 (by decide +kernel : depthAfter 0 _ = some 1)).1
  have hrest : Covered 0 " CREATE TABLE t (id INT); DROP u".toList :=
    (depthAfter_eq_some.1 (by decide +kernel : depthAfter 0 _ = some 0)).1
  have hhead : header "CREATE TABLE u (".toList = some ("u".toList, []) := by decide +kernel
  obtain ⟨hstatements, hskipped⟩ :=
    statements_unclosed_semicolon hhead (by decide) hcovered (by decide +kernel) hrest
  refine ⟨?_, ?_⟩
  · rw [hstatements]
    decide +kernel
  · rw [hskipped]
    decide +kernel

end SchemaDesign.Ddl
