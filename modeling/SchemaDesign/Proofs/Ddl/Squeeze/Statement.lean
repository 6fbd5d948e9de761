import SchemaDesign.Proofs.Ddl.Squeeze.Scan
import SchemaDesign.Proofs.Ddl.Walk

/-! Cutting a squeezed text into statements: its segments are the squeezed segments of the text. -/
namespace SchemaDesign.Ddl
open Text

variable {b : Bool} {c : Char} {s t table after : List Char}

@[simp] theorem ifNotExists_squeeze (s : List Char) :
    ifNotExists (squeeze s) = (ifNotExists s).map squeeze := by
  unfold ifNotExists
  rw [phrase_squeeze (by decide)]
  exact map_bind_congr gap_squeeze

@[simp] theorem qualifiedName_squeeze (s : List Char) :
    qualifiedName (squeeze s) = (qualifiedName s).map (Prod.map id squeeze) := by
  unfold qualifiedName
  rw [name_squeeze]
  refine map_bind_congr fun p => ?_
  obtain ⟨first, rest⟩ := p
  have hsecond : (mark '.' (squeeze rest)).bind name =
      ((mark '.' rest).bind name).map (Prod.map id squeeze) := by
    rw [mark_squeeze (by decide)]
    exact map_bind_congr name_squeeze
  simp only [Prod.map, id_eq, hsecond]
  cases (mark '.' rest).bind name <;> rfl

theorem getD_squeeze (x : Option (List Char)) (s : List Char) :
    (x.map squeeze).getD (squeeze s) = squeeze (x.getD s) := by
  cases x <;> rfl

@[simp] theorem header_squeeze (s : List Char) :
    header (squeeze s) = (header s).map (Prod.map id squeeze) := by
  unfold header
  rw [phrase_squeeze (by decide)]
  refine map_bind_congr fun r => ?_
  rw [gap_squeeze]
  refine map_bind_congr fun u => ?_
  rw [ifNotExists_squeeze, getD_squeeze, qualifiedName_squeeze]
  refine map_bind_congr fun p => ?_
  simp only [Prod.map, id_eq, spacedMark_squeeze (m := '(') (by decide)]
  cases spacedMark '(' p.2 <;> rfl

theorem header_of_blank (h : isBlank c = true) : header (c :: s) = none := by
  rw [header, phrase_of_blank (by decide) h]
  rfl

/-- What was found, squeezed. `inRun` tells whether a blank precedes the text. -/
def Found.squeezeFrom (inRun : Bool) (f : Found) : Found :=
  ⟨Ddl.squeezeFrom inRun f.before, squeeze f.head, f.table, squeeze f.after⟩

/-- The head of a statement is squeezed apart from what follows it. -/
theorem squeeze_head_append {head : List Char} (h : header (head ++ after) = some (table, after))
    (t : List Char) : squeeze (head ++ t) = squeeze head ++ squeeze t := by
  obtain ⟨g, hg⟩ := header_eq_append h
  have hg : head = g ++ ['('] := by
    rw [List.append_cons] at hg
    exact List.append_cancel_right hg
  rw [hg, List.append_assoc, List.singleton_append, squeeze_append_mark (by decide),
    squeeze_append_mark (by decide)]
  simp

theorem shrinks_find? : Shrinks find? (fun c => Option.map fun f => { f with before := c :: f.before })
    fun b => Option.map (Found.squeezeFrom b) where
  nil := fun _ => rfl
  blank := fun s hc => find?_of_no_header (header_of_blank hc)
  first := by
    intro c a hc
    cases a with
    | none => rfl
    | some f =>
      simp only [Option.map_some, Found.squeezeFrom, Ddl.squeezeFrom_false, squeeze_blank hc]
  later := by
    intro c a hc
    cases a with
    | none => rfl
    | some f => simp only [Option.map_some, Found.squeezeFrom, squeezeFrom_blank hc]
  mark := by
    intro b c s hc ih
    rw [← squeeze_mark hc]
    cases hh : header (c :: s) with
    | none =>
      have hsqueezed : header (squeeze (c :: s)) = none := by
        rw [header_squeeze, hh]
        rfl
      rw [squeeze_mark hc] at hsqueezed ⊢
      rw [find?_of_no_header hsqueezed, find?_of_no_header hh, ih]
      cases find? s with
      | none => rfl
      | some f => simp only [Option.map_some, Found.squeezeFrom, squeezeFrom_mark hc, squeezeFrom_false]
    | some p =>
      obtain ⟨table, after⟩ := p
      obtain ⟨head, hne, hs⟩ := header_eq_some_append hh
      have hsqueezed : header (squeeze (c :: s)) = some (table, squeeze after) := by
        rw [header_squeeze, hh]
        rfl
      rw [hs] at hh hsqueezed ⊢
      rw [squeeze_head_append hh] at hsqueezed ⊢
      rw [find?_of_header hne hh, find?_of_header (head_ne_nil hsqueezed) hsqueezed]
      rfl

theorem find?_squeeze (s : List Char) : find? (squeeze s) = (find? s).map (Found.squeezeFrom false) :=
  shrinks_find?.scan_squeezeFrom false s

/-- A body and the text behind it, squeezed. -/
def squeezeSplit (inRun : Bool) (p : List Char × List Char) : List Char × List Char :=
  (squeezeFrom inRun p.1, squeeze p.2)

/-- The text up to a place and the text behind it, with a character more in front. -/
def consSplit (c : Char) (p : List Char × List Char) : List Char × List Char := (c :: p.1, p.2)

theorem consSplit_first (hc : isBlank c = true) (p : List Char × List Char) :
    consSplit ' ' (squeezeSplit true p) = squeezeSplit false (consSplit c p) := by
  simp only [consSplit, squeezeSplit, squeezeFrom_false, squeeze_blank hc]

theorem squeezeSplit_later (hc : isBlank c = true) (p : List Char × List Char) :
    squeezeSplit true p = squeezeSplit true (consSplit c p) := by
  simp only [consSplit, squeezeSplit, squeezeFrom_blank hc]

theorem consSplit_mark (hc : isBlank c = false) (b : Bool) (p : List Char × List Char) :
    consSplit c (squeezeSplit false p) = squeezeSplit b (consSplit c p) := by
  simp only [consSplit, squeezeSplit, squeezeFrom_false, squeezeFrom_mark hc]

theorem splitBody_cons_blank (hc : isBlank c = true) (depth : Nat) (s : List Char) :
    splitBody depth (c :: s) = (splitBody depth s).map (consSplit c) := by
  simp only [splitBody, if_neg (ne_of_isBlank hc (m := '(') (by decide)),
    if_neg (ne_of_isBlank hc (m := ')') (by decide))]
  rfl

theorem shrinks_splitBody : Shrinks (fun s depth => splitBody depth s)
    (fun c a depth => (a depth).map (consSplit c)) fun b a depth => (a depth).map (squeezeSplit b) where
  nil := fun _ => rfl
  blank := by
    intro c s hc
    funext depth
    exact splitBody_cons_blank hc depth s
  first := by
    intro c a hc
    funext depth
    rw [Option.map_map, Option.map_map]
    exact congrArg (Option.map · (a depth)) (funext (consSplit_first hc))
  later := by
    intro c a hc
    funext depth
    rw [Option.map_map]
    exact congrArg (Option.map · (a depth)) (funext (squeezeSplit_later hc))
  mark := by
    intro b c s hc ih
    have hcons (depth : Nat) : (splitBody depth (squeeze s)).map (consSplit c) =
        ((splitBody depth s).map (consSplit c)).map (squeezeSplit b) := by
      rw [congrFun ih depth, Option.map_map, Option.map_map]
      exact congrArg (Option.map · (splitBody depth s)) (funext (consSplit_mark hc b))
    funext depth
    simp only [splitBody]
    split
    · exact hcons (depth + 1)
    · split
      · cases depth with
        | zero => rfl
        | succ depth => exact hcons depth
      · exact hcons depth

theorem splitBody_squeeze (depth : Nat) (s : List Char) :
    splitBody depth (squeeze s) = (splitBody depth s).map (squeezeSplit false) :=
  congrFun (shrinks_splitBody.scan_squeezeFrom false s) depth

theorem shrinks_splitUnclosed : Shrinks splitUnclosed consSplit squeezeSplit where
  nil := fun _ => rfl
  blank := by
    intro c s hc
    rw [splitUnclosed, header_of_blank hc, if_neg (by simp), if_neg (ne_of_isBlank hc (by decide))]
    rfl
  first := fun p hc => consSplit_first hc p
  later := fun p hc => squeezeSplit_later hc p
  mark := by
    intro b c s hc ih
    have hhead : (header (c :: squeeze s)).isSome = (header (c :: s)).isSome := by
      rw [← squeeze_mark hc, header_squeeze, Option.isSome_map]
    rw [splitUnclosed, splitUnclosed, hhead]
    split
    · simp only [squeezeSplit, squeezeFrom_nil, squeeze_mark hc]
    · split
      · simp only [squeezeSplit, squeezeFrom_mark hc, squeeze_nil]
      · have hcons := consSplit_mark hc b (splitUnclosed s)
        rw [← ih] at hcons
        exact hcons

theorem splitUnclosed_squeeze (s : List Char) :
    splitUnclosed (squeeze s) = squeezeSplit false (splitUnclosed s) :=
  shrinks_splitUnclosed.scan_squeezeFrom false s

/-- A segment of a squeezed text. -/
def Segment.squeeze : Segment → Segment
  | between text => between (Ddl.squeeze text)
  | statement head table body => statement (Ddl.squeeze head) table (Ddl.squeeze body)
  | unclosed text => unclosed (Ddl.squeeze text)

theorem segments_squeeze (s : List Char) : segments (squeeze s) = (segments s).map Segment.squeeze := by
  refine segments_induction (P := fun s => segments (squeeze s) = (segments s).map Segment.squeeze)
    ?_ ?_ ?_ s
  · intro s hf
    have hsqueezed : find? (squeeze s) = none := by rw [find?_squeeze, hf]; rfl
    rw [segments_of_none hf, segments_of_none hsqueezed]
    rfl
  · intro s f body rest hf hb ih
    have hsqueezed : find? (squeeze s) = some (f.squeezeFrom false) := by rw [find?_squeeze, hf]; rfl
    have hbody : splitBody 0 (squeeze f.after) = some (squeeze body, squeeze rest) := by
      rw [splitBody_squeeze, hb]
      rfl
    rw [segments_of_closed hf hb, segments_of_closed hsqueezed hbody, ih]
    rfl
  · intro s f hf hb ih
    have hsqueezed : find? (squeeze s) = some (f.squeezeFrom false) := by rw [find?_squeeze, hf]; rfl
    have hbody : splitBody 0 (squeeze f.after) = none := by
      rw [splitBody_squeeze, hb]
      rfl
    have hunclosed : splitUnclosed (f.squeezeFrom false).after = squeezeSplit false (splitUnclosed f.after) :=
      splitUnclosed_squeeze f.after
    rw [segments_of_unclosed hf hb, segments_of_unclosed hsqueezed hbody, hunclosed]
    simp only [squeezeSplit, squeezeFrom_false, ih, List.map_cons, Segment.squeeze,
      squeeze_head_append (unheaded_of_find? hf).2]
    rfl

theorem statements_squeeze (s : List Char) :
    statements (squeeze s) = (statements s).map (Prod.map id squeeze) := by
  rw [statements, segments_squeeze, List.filterMap_map, statements, List.map_filterMap]
  refine List.filterMap_congr fun seg _ => ?_
  cases seg <;> rfl

end SchemaDesign.Ddl
