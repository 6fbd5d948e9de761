import SchemaDesign.Proofs.Ddl.Squeeze.Statement

/-! Taking a squeezed body apart: its pieces are the squeezed pieces of the body, and each of them is what
it was. -/
namespace SchemaDesign.Ddl
open Text

variable {b : Bool} {c : Char} {s : List Char}

/-! Pieces -/

theorem depthChange_of_isBlank (hc : isBlank c = true) : depthChange c = 0 := by
  rw [depthChange, if_neg (ne_of_isBlank hc (by decide)), if_neg (ne_of_isBlank hc (by decide))]

/-- A character that is no comma at the top level goes before the first piece. -/
theorem cutAtCommas_cons_of_not {depth : Int} (h : ¬ (c = ',' ∧ depth = 0)) (s : List Char) :
    cutAtCommas depth (c :: s) = (cutAtCommas (depth + depthChange c) s).modifyHead (c :: ·) := by
  obtain ⟨p, ps, -, hcut, -, -⟩ := inside_cutAtCommas (depth + depthChange c) s
  rw [cutAtCommas, if_neg h, hcut]
  rfl

theorem shrinks_cutAtCommas : Shrinks (fun s depth => cutAtCommas depth s)
    (fun c a depth => (a depth).modifyHead (c :: ·)) fun b a depth => squeezeParts b (a depth) where
  nil := fun _ => rfl
  blank := by
    intro c s hc
    funext depth
    rw [cutAtCommas_cons_of_not fun h => ne_of_isBlank hc (m := ',') (by decide) h.1,
      depthChange_of_isBlank hc, Int.add_zero]
  first := fun a hc => funext fun depth => squeezeParts_first hc (a depth)
  later := fun a hc => funext fun depth => squeezeParts_later hc (a depth)
  mark := by
    intro b c s hc ih
    funext depth
    have ih (depth : Int) : cutAtCommas depth (squeeze s) = (cutAtCommas depth s).map squeeze := by
      rw [← squeezeParts_false]
      exact congrFun ih depth
    dsimp only
    by_cases hcomma : c = ',' ∧ depth = 0
    · rw [cutAtCommas, cutAtCommas, if_pos hcomma, if_pos hcomma, ih]
      rfl
    · rw [cutAtCommas_cons_of_not hcomma, cutAtCommas_cons_of_not hcomma, ih]
      exact squeezeParts_mark hc b _

theorem pieces_squeeze (body : List Char) : pieces (squeeze body) = (pieces body).map squeeze := by
  have hcut : cutAtCommas 0 (squeeze body) = (cutAtCommas 0 body).map squeeze := by
    rw [← squeezeParts_false]
    exact congrFun (shrinks_cutAtCommas.scan_squeezeFrom false body) 0
  rw [pieces, hcut, List.map_map, pieces, List.filter_map, List.filter_map, List.map_map]
  simp only [Function.comp_def, trim_squeeze, isEmpty_squeeze]

/-! Clauses -/

theorem constraintName_squeeze (s : List Char) :
    constraintName (squeeze s) = (constraintName s).map squeeze := by
  unfold constraintName
  rw [keyword_squeeze (by decide)]
  refine map_bind_congr fun r => ?_
  rw [gap_squeeze]
  refine map_bind_congr fun u => ?_
  rw [run_squeeze dense_not_isBlank]
  exact map_bind_congr fun p => gap_squeeze p.2

theorem primaryKeyClause?_squeeze (s : List Char) :
    primaryKeyClause? (squeeze s) = primaryKeyClause? s := by
  unfold primaryKeyClause?
  rw [constraintName_squeeze, getD_squeeze, phrase_squeeze (by decide)]
  refine map_bind_eq fun r => ?_
  rw [parenthesisedName_squeeze]
  refine map_bind_eq fun p => ?_
  simp only [Prod.map, id_eq, isEmpty_squeeze]

theorem referencesClause?_squeeze (s : List Char) :
    referencesClause? (squeeze s) = referencesClause? s := by
  unfold referencesClause?
  rw [keyword_squeeze (by decide)]
  refine map_bind_eq fun r => ?_
  rw [gap_squeeze]
  refine map_bind_eq fun u => ?_
  rw [name_squeeze]
  refine map_bind_eq fun p => ?_
  simp only [Prod.map, id_eq, parenthesisedName_squeeze]
  exact map_bind_eq fun q => rfl

theorem foreignKeyClause?_squeeze (s : List Char) :
    foreignKeyClause? (squeeze s) = foreignKeyClause? s := by
  unfold foreignKeyClause?
  rw [constraintName_squeeze, getD_squeeze, phrase_squeeze (by decide)]
  refine map_bind_eq fun r => ?_
  rw [parenthesisedName_squeeze]
  refine map_bind_eq fun p => ?_
  simp only [Prod.map, id_eq, skipBlanks_squeeze, referencesClause?_squeeze]

theorem any_map_squeeze {x : Option (List Char)} {q : List Char → Bool}
    (hq : ∀ s, q (squeeze s) = q s) : (x.map squeeze).any q = x.any q := by
  cases x with
  | none => rfl
  | some s => exact hq s

theorem indexWord_squeeze (s : List Char) : indexWord (squeeze s) = (indexWord s).map squeeze := by
  unfold indexWord
  rw [keyword_squeeze (by decide), keyword_squeeze (by decide)]
  cases keyword "INDEX".toList s <;> rfl

theorem keyWords_squeeze (s : List Char) : keyWords (squeeze s) = keyWords s := by
  unfold keyWords
  rw [phrase_squeeze (by decide), phrase_squeeze (by decide)]
  cases phrase ["PRIMARY".toList, "KEY".toList] s with
  | none => exact any_map_squeeze wordEnds_squeeze
  | some r => exact wordEnds_squeeze r

theorem uniqueWords_squeeze (s : List Char) : uniqueWords (squeeze s) = uniqueWords s := by
  unfold uniqueWords
  rw [keyword_squeeze (by decide)]
  refine any_map_squeeze fun r => ?_
  rw [spacedMark_squeeze (by decide), Option.isSome_map, skipBlanks_squeeze, indexWord_squeeze,
    any_map_squeeze wordEnds_squeeze]

theorem checkWords_squeeze (s : List Char) : checkWords (squeeze s) = checkWords s := by
  unfold checkWords
  rw [keyword_squeeze (by decide), map_bind_congr (spacedMark_squeeze (m := '(') (by decide)),
    Option.isSome_map]

theorem namesColumn_squeeze (s : List Char) : namesColumn (squeeze s) = namesColumn s := by
  cases s with
  | nil => rfl
  | cons c s =>
    cases hc : isBlank c with
    | false => rw [squeeze_mark hc]; rfl
    | true =>
      have hfalse : ∀ d t, isBlank d = true → namesColumn (d :: t) = false := by
        intro d t hd
        rw [namesColumn, dense_isQuote d hd, dense_isLetter d hd,
          beq_eq_false_iff_ne.2 (ne_of_isBlank hd (by decide))]
        rfl
      rw [squeeze_blank hc, hfalse ' ' _ isBlank_space, hfalse c s hc]

theorem indexWords_squeeze (s : List Char) : indexWords (squeeze s) = indexWords s := by
  unfold indexWords
  rw [indexWord_squeeze]
  refine any_map_squeeze fun r => ?_
  have hnamed : (do spacedMark '(' (← name (← gap (squeeze r))).2) =
      (do spacedMark '(' (← name (← gap r)).2).map squeeze := by
    rw [gap_squeeze]
    refine map_bind_congr fun u => ?_
    rw [name_squeeze]
    exact map_bind_congr fun p => spacedMark_squeeze (m := '(') (by decide) p.2
  rw [spacedMark_squeeze (by decide), Option.isSome_map, hnamed, any_map_squeeze]
  intro inner
  rw [skipBlanks_squeeze, namesColumn_squeeze]

theorem isTableClause_squeeze (s : List Char) : isTableClause (squeeze s) = isTableClause s := by
  unfold isTableClause
  rw [constraintName_squeeze, keyWords_squeeze, uniqueWords_squeeze, checkWords_squeeze,
    indexWords_squeeze, any_map_squeeze]
  intro r
  rw [keyWords_squeeze, uniqueWords_squeeze, checkWords_squeeze]

/-! Definitions -/

def Definition.squeeze (d : Definition) : Definition :=
  ⟨d.name, d.type, d.length.map Ddl.squeeze, Ddl.squeeze d.modifiers⟩

theorem qualifier_squeeze (s : List Char) :
    qualifier (squeeze s) = Prod.map (Option.map squeeze) squeeze (qualifier s) := by
  unfold qualifier
  rw [spacedMark_squeeze (by decide)]
  cases spacedMark '(' s with
  | none => rfl
  | some inner =>
    have hclosed : isBlank ')' = false := by decide
    simp only [Option.map_some, takeWhile_ne_squeeze hclosed, dropWhile_ne_squeeze hclosed, trim_squeeze]
    cases hrest : inner.dropWhile (· != ')') with
    | nil => rfl
    | cons c rest =>
      have hc : c = ')' := by
        have hnot := List.head?_dropWhile_not (· != ')') inner
        rw [hrest] at hnot
        simpa using hnot
      rw [hc, squeeze_mark hclosed]
      rfl

theorem definition?_squeeze (s : List Char) :
    definition? (squeeze s) = (definition? s).map Definition.squeeze := by
  unfold definition?
  rw [skipQuote_squeeze, run_squeeze dense_isNameChar]
  refine map_bind_congr fun p => ?_
  simp only [Prod.map, id_eq, skipQuote_squeeze, gap_squeeze]
  refine map_bind_congr fun r => ?_
  rw [run_squeeze dense_isLetter]
  refine map_bind_congr fun q => ?_
  simp only [Prod.map, id_eq, qualifier_squeeze]
  rfl

theorem inlineTarget?_squeezeFrom {inWord : Bool} (hb : b = true → inWord = false) (s : List Char) :
    inlineTarget? inWord (squeezeFrom b s) = inlineTarget? inWord s := by
  induction s generalizing b inWord with
  | nil => rfl
  | cons c s ih =>
    cases hc : isBlank c with
    | false =>
      rw [squeezeFrom_mark hc, inlineTarget?, inlineTarget?, ← squeeze_mark hc,
        referencesClause?_squeeze, squeeze, ih (by simp)]
    | true =>
      have hnext : ∀ d t i, isBlank d = true → inlineTarget? i (d :: t) = inlineTarget? false t := by
        intro d t i hd
        have hnone : referencesClause? (d :: t) = none := by
          rw [referencesClause?, keyword_of_blank (by decide) hd]
          rfl
        rw [inlineTarget?, hnone, isWord_of_isBlank hd]
        simp
      rw [hnext c s inWord hc, ← ih (b := true) fun _ => rfl]
      cases b with
      | true => rw [squeezeFrom_blank hc, hb rfl]
      | false => rw [squeezeFrom_false, squeeze_blank hc, hnext ' ' _ inWord isBlank_space]

theorem inlineTarget?_squeeze (s : List Char) :
    inlineTarget? false (squeeze s) = inlineTarget? false s :=
  inlineTarget?_squeezeFrom (b := false) (by simp) s

def Piece.squeeze : Piece → Piece
  | column d inlined => column d.squeeze inlined
  | p => p

theorem ofText_squeeze (s : List Char) : Piece.ofText (squeeze s) = (Piece.ofText s).squeeze := by
  unfold Piece.ofText
  rw [primaryKeyClause?_squeeze, foreignKeyClause?_squeeze, isTableClause_squeeze, definition?_squeeze,
    inlineTarget?_squeeze]
  cases primaryKeyClause? s with
  | some name => rfl
  | none =>
    cases foreignKeyClause? s with
    | some clause => rfl
    | none =>
      dsimp only
      split
      · rfl
      · cases definition? s <;> rfl

end SchemaDesign.Ddl
