import SchemaDesign.Proofs.Ddl.Squeeze.Piece

/-! Layout makes no difference. Texts that differ in their runs of blanks alone are read alike: both cannot
be read for the same reason, or the same tables come from both, and what is skipped differs in blanks. -/
namespace SchemaDesign.Ddl
open Text

variable {s t : List Char}

/-- The second text has another run of blanks in the place of each run of the first, and is the same
otherwise. -/
inductive Relaid : List Char → List Char → Prop
  | nil : Relaid [] []
  | mark (c : Char) {s t : List Char} (hc : isBlank c = false) (rest : Relaid s t) :
      Relaid (c :: s) (c :: t)
  | run {x y s t : List Char} (hx : x ≠ []) (blanks : ∀ c ∈ x, isBlank c = true) (hy : y ≠ [])
      (blanks' : ∀ c ∈ y, isBlank c = true) (hs : Stops isBlank s) (ht : Stops isBlank t)
      (rest : Relaid s t) : Relaid (x ++ s) (y ++ t)

/-- Texts are laid out anew exactly if they are squeezed to the same text. -/
theorem relaid_iff : Relaid s t ↔ squeeze s = squeeze t := by
  constructor
  · intro h
    induction h with
    | nil => rfl
    | mark c hc _ ih => rw [squeeze_mark hc, squeeze_mark hc, ih]
    | run hx blanks hy blanks' hs ht _ ih =>
      rw [squeeze_run hx blanks, squeeze_run hy blanks', squeezeFrom_of_stops hs,
        squeezeFrom_of_stops ht, ih]
  · refine runs_induction (P := fun s => ∀ t, squeeze s = squeeze t → Relaid s t) ?_ ?_ ?_ s t
    · intro t h
      rw [squeeze_eq_nil.1 h.symm]
      exact .nil
    · intro c s hc ih t h
      rw [squeeze_mark hc] at h
      cases t with
      | nil => cases h
      | cons d t =>
        cases hd : isBlank d with
        | false =>
          rw [squeeze_mark hd] at h
          obtain ⟨rfl, hrest⟩ := List.cons.inj h
          exact .mark c hc (ih t hrest)
        | true =>
          rw [squeeze_blank hd] at h
          exact absurd (List.cons.inj h).1.symm (ne_of_isBlank isBlank_space hc)
    · intro x s hx blanks hs ih t h
      rw [squeeze_run hx blanks, squeezeFrom_of_stops hs] at h
      cases t with
      | nil => cases h
      | cons d t =>
        cases hd : isBlank d with
        | false =>
          rw [squeeze_mark hd] at h
          exact absurd (List.cons.inj h).1 (ne_of_isBlank isBlank_space hd)
        | true =>
          obtain ⟨y, r, hsplit, hy, blanks', hr, -⟩ := exists_run hd t
          rw [hsplit] at h ⊢
          rw [squeeze_run hy blanks', squeezeFrom_of_stops hr] at h
          exact .run hx blanks hy blanks' hs hr (ih r (List.cons.inj h).2)

instance (s t : List Char) : Decidable (Relaid s t) := decidable_of_iff _ relaid_iff.symm

/-! One body -/

def Fragment.squeeze (f : Fragment) : Fragment := ⟨String.ofList (Ddl.squeeze f.text.toList), f.reason⟩

@[simp] theorem Fragment.squeeze_squeeze (f : Fragment) : f.squeeze.squeeze = f.squeeze := by
  simp [Fragment.squeeze]

theorem Definition.typeLength_squeeze (d : Definition) : d.squeeze.typeLength = d.typeLength := by
  unfold typeLength Definition.squeeze
  cases d.length with
  | none => rfl
  | some digits =>
    simp only [Option.map_some, isEmpty_squeeze, all_squeeze dense_isDigit]
    split
    · next hdigits =>
      have hall := List.all_eq_true.1 (Bool.and_eq_true_iff.1 hdigits).2
      have hblank : ∀ c ∈ digits, isBlank c = false := by
        intro c hc
        by_contra h
        have hdigit := dense_isDigit c (Bool.not_eq_false _ ▸ h)
        rw [hall c hc] at hdigit
        cases hdigit
      rw [squeeze_of_forall hblank]
    · rfl

theorem Body.columnOf_squeeze (d : Definition) (len : Option Int) :
    columnOf d.squeeze len = columnOf d len := by
  have hwords {ws : List (List Char)} (h : Spelled ws) :
      hasPhrase ws false d.squeeze.modifiers = hasPhrase ws false d.modifiers :=
    hasPhrase_squeeze h d.modifiers
  unfold columnOf Definition.notNull Definition.unique Definition.primaryKey
  rw [hwords (by decide), hwords (by decide), hwords (by decide)]
  rfl

namespace Body

def squeeze (b : Body) : Body := { b with skipped := b.skipped.map Fragment.squeeze }

theorem skip_squeeze (b : Body) (p : List Char) (reason : Reason) :
    b.squeeze.skip (Ddl.squeeze p) reason = (b.skip p reason).squeeze := by
  simp [skip, squeeze, Fragment.squeeze]

theorem addColumn_squeeze (b : Body) (p : List Char) (d : Definition) (inlined : Option Target) :
    b.squeeze.addColumn (Ddl.squeeze p) d.squeeze inlined = (b.addColumn p d inlined).map squeeze := by
  unfold addColumn
  have hname : d.squeeze.name = d.name := rfl
  have hcolumns : b.squeeze.columns = b.columns := rfl
  simp only [hname, hcolumns, d.typeLength_squeeze, skip_squeeze, columnOf_squeeze]
  split
  · rfl
  · split
    · rfl
    · cases d.typeLength <;> rfl

theorem add_squeeze (b : Body) (p : List Char) :
    b.squeeze.add (Ddl.squeeze p) = (b.add p).map squeeze := by
  unfold add
  rw [ofText_squeeze]
  cases Piece.ofText p with
  | primaryKey name => rfl
  | foreignKey name target => rfl
  | unsupported => exact congrArg Except.ok (skip_squeeze b p _)
  | unrecognised => exact congrArg Except.ok (skip_squeeze b p _)
  | column d inlined => exact addColumn_squeeze b p d inlined

theorem ofPieces_squeeze (ps : List (List Char)) :
    ofPieces (ps.map Ddl.squeeze) = (ofPieces ps).map squeeze := by
  suffices h : ∀ b : Body, (ps.map Ddl.squeeze).foldlM add b.squeeze = (ps.foldlM add b).map squeeze from
    h empty
  induction ps with
  | nil => exact fun b => rfl
  | cons p ps ih =>
    intro b
    rw [List.map_cons, List.foldlM_cons, List.foldlM_cons, add_squeeze]
    cases b.add p with
    | error e => rfl
    | ok b' => exact ih b'

end Body

/-! Whole texts -/

/-- What was read, but for the blanks in what was skipped. -/
def squeezeSkipped {α : Type} (r : α × List Fragment) : α × List Fragment :=
  (r.1, r.2.map Fragment.squeeze)

theorem readTable_squeeze (id name : String) (body : List Char) :
    (readTable id name (squeeze body)).map squeezeSkipped =
      (readTable id name body).map squeezeSkipped := by
  unfold readTable
  rw [pieces_squeeze, Body.ofPieces_squeeze]
  cases Body.ofPieces (pieces body) with
  | error e => rfl
  | ok b =>
    have hskipped : (b.squeeze.skipped ++ b.squeeze.missingColumns name).map Fragment.squeeze =
        (b.skipped ++ b.missingColumns name).map Fragment.squeeze := by
      have hmissing : b.squeeze.missingColumns name = b.missingColumns name := rfl
      have hsqueezed : b.squeeze.skipped.map Fragment.squeeze = b.skipped.map Fragment.squeeze := by
        rw [Body.squeeze, List.map_map]
        exact List.map_congr_left fun f _ => f.squeeze_squeeze
      rw [List.map_append, List.map_append, hmissing, hsqueezed]
    exact congrArg (fun skipped => Except.ok
      (Pending.mk ⟨id, name, "", PrimaryKey.normalise b.primaryKey b.columns⟩ b.foreignKeys, skipped))
      hskipped

theorem readStatements_squeeze (ids : TableId.Supply) (sts : List (List Char × List Char)) :
    (readStatements ids (sts.map (Prod.map id squeeze))).map squeezeSkipped =
      (readStatements ids sts).map squeezeSkipped := by
  induction sts generalizing ids with
  | nil => rfl
  | cons st sts ih =>
    rw [List.map_cons, readStatements, readStatements]
    refine bind_map_congr (f := squeezeSkipped) ?_ ?_
    · rw [map_mapError, map_mapError]
      exact congrArg (Except.mapError _)
        (readTable_squeeze ids.first (String.ofList st.1) st.2)
    rintro ⟨p, sk⟩ ⟨p', sk'⟩ hfirst
    refine bind_map_congr (f := squeezeSkipped) ?_ ?_
    · rw [map_mapError, map_mapError, ih]
    rintro ⟨ps, rest⟩ ⟨ps', rest'⟩ hrest
    obtain ⟨rfl, hsk⟩ := Prod.mk.inj hfirst
    obtain ⟨rfl, hrest⟩ := Prod.mk.inj hrest
    refine congrArg (fun skipped => Except.ok (p :: ps, skipped)) ?_
    rw [List.map_append, List.map_append, hsk, hrest]

theorem gapFragments_squeeze (gap : List Char) :
    gapFragments (squeeze gap) = (gapFragments gap).map Fragment.squeeze := by
  unfold gapFragments
  rw [splitOnP_squeeze (by decide), List.map_map, List.filter_map, List.filter_map, List.map_map,
    List.map_map, List.map_map]
  simp only [Function.comp_def, trim_squeeze, isEmpty_squeeze, Fragment.squeeze, String.toList_ofList]

theorem unclosedText_squeeze (s : List Char) : unclosedText (squeeze s) = squeeze (unclosedText s) := by
  have hdense : Dense (· == ';') := dense_beq (by decide)
  unfold unclosedText
  rw [trim_squeeze, ← squeeze_reverse, dropWhile_squeeze hdense, ← squeeze_reverse, trim_squeeze]

theorem skippedStatements_squeeze (s : List Char) :
    skippedStatements (squeeze s) = (skippedStatements s).map Fragment.squeeze := by
  unfold skippedStatements
  rw [segments_squeeze, List.flatMap_map, List.map_flatMap]
  refine congrArg (List.flatMap · (segments s)) (funext fun seg => ?_)
  cases seg with
  | between text => exact gapFragments_squeeze text
  | statement head table body => rfl
  | unclosed text => simp [Segment.squeeze, Segment.fragments, unclosedText_squeeze, Fragment.squeeze]

/-- Two readings that differ in the blanks of what was skipped alone. -/
inductive ReadAlike : Except Fault Report → Except Fault Report → Prop
  | fault (e : Fault) : ReadAlike (.error e) (.error e)
  | report {r r' : Report} (tables : r.tables = r'.tables) (unresolved : r.unresolved = r'.unresolved)
      (skipped : List.Forall₂ (fun f f' => f.reason = f'.reason ∧ Relaid f.text.toList f'.text.toList)
        r.skipped r'.skipped) : ReadAlike (.ok r) (.ok r')

theorem head?_squeeze {y : Char} (hy : isBlank y = false) (s : List Char) :
    (squeeze s).head? = some y ↔ s.head? = some y := by
  cases s with
  | nil => rfl
  | cons d s =>
    cases hd : isBlank d with
    | false => rw [squeeze_mark hd]; rfl
    | true => simp [squeeze_blank hd, ne_of_isBlank hd hy, ne_of_isBlank isBlank_space hy]

theorem shrinks_has {x y : Char} (hx : isBlank x = false) (hy : isBlank y = false) :
    Shrinks (Has x y) (fun _ a => a) fun _ a => a where
  nil := fun _ => rfl
  blank := by
    intro c s hc
    rw [has_cons]
    exact propext (or_iff_right fun h => ne_of_isBlank hc hx h.1)
  first := fun _ _ => rfl
  later := fun _ _ => rfl
  mark := by
    intro b c s hc ih
    rw [has_cons, has_cons, head?_squeeze hy, ih]

/-- Two texts have the same marks in them if they are laid out anew. -/
theorem Relaid.has_iff (h : Relaid s t) {x y : Char} (hx : isBlank x = false) (hy : isBlank y = false) :
    Has x y s ↔ Has x y t := by
  have hhas := (shrinks_has hx hy).scan_squeezeFrom false
  rw [← hhas s, ← hhas t, squeezeFrom_false, squeezeFrom_false, relaid_iff.1 h]

theorem uncommented_of_not_has (hblock : ¬ Has '/' '*' s) (hline : ¬ Has '-' '-' s) : Uncommented s :=
  ⟨fun a b hs => absurd ⟨a, b, hs⟩ hblock, hline⟩

/-- Texts without comments that differ in their runs of blanks alone are read alike. -/
theorem read_relaid {a b : String} (hline : ¬ Has '-' '-' a.toList) (hblock : ¬ Has '/' '*' a.toList)
    (h : Relaid a.toList b.toList) (ids : TableId.Supply) : ReadAlike (read ids a) (read ids b) := by
  have hsource : source a = a.toList := (uncommented_of_not_has hblock hline).withoutComments_eq
  have hsource' : source b = b.toList := by
    refine (uncommented_of_not_has (fun hb => hblock ?_) fun hb => hline ?_).withoutComments_eq
    · exact (h.has_iff (by decide) (by decide)).2 hb
    · exact (h.has_iff (by decide) (by decide)).2 hb
  have hsqueeze := relaid_iff.1 h
  have hstatements : (readStatements ids (statements a.toList)).map squeezeSkipped =
      (readStatements ids (statements b.toList)).map squeezeSkipped := by
    rw [← readStatements_squeeze, ← statements_squeeze, hsqueeze, statements_squeeze,
      readStatements_squeeze]
  have houtside : (skippedStatements a.toList).map Fragment.squeeze =
      (skippedStatements b.toList).map Fragment.squeeze := by
    rw [← skippedStatements_squeeze, hsqueeze, skippedStatements_squeeze]
  rw [read_eq, read_eq, hsource, hsource']
  rcases map_eq_map hstatements with ⟨e, ha, hb⟩ | ⟨⟨ps, sk⟩, ⟨ps', sk'⟩, ha, hb, heq⟩
  · rw [ha, hb]
    exact .fault e
  · obtain ⟨rfl, hsk⟩ := Prod.mk.inj heq
    rw [ha, hb]
    refine .report rfl rfl ?_
    have hskipped : (skippedStatements a.toList ++ sk).map Fragment.squeeze =
        (skippedStatements b.toList ++ sk').map Fragment.squeeze := by
      rw [List.map_append, List.map_append, houtside, hsk]
    refine (forall₂_eq_iff_map.2 hskipped).imp fun f f' hf => ?_
    obtain ⟨htext, hreason⟩ := Fragment.mk.inj hf
    exact ⟨hreason, relaid_iff.2 (String.ofList_inj.1 htext)⟩

/-- A statement with what is skipped in it and behind it, on one line. -/
def denseText : String := "CREATE TABLE t (id INT NOT NULL, CHECK (id)); DROP u"

/-- The same text on lines of its own, with tabs and other spaces. -/
def airyText : String :=
  "CREATE\tTABLE\nt\u2003(id\r\n\tINT NOT\u00a0\u00a0NULL,\n\tCHECK\t(id));\n\nDROP\tu"

theorem read_relaid_airyText : Relaid denseText.toList airyText.toList ∧
    ReadAlike (read .counter denseText) (read .counter airyText) := by
  have h : Relaid denseText.toList airyText.toList := by decide +kernel
  exact ⟨h, read_relaid (by decide +kernel) (by decide +kernel) h .counter⟩

end SchemaDesign.Ddl
