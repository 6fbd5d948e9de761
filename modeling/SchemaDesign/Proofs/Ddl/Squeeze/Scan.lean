import SchemaDesign.Proofs.Ddl.Squeeze.Text
import SchemaDesign.Proofs.Result

/-! The steps of the scanner in a squeezed text. Every one finds there what it finds in the text itself, and
leaves the squeezed rest. -/
namespace SchemaDesign.Ddl
open Text

variable {b : Bool} {c : Char} {s t : List Char}

/-- A letter is no blank, in any of its forms. -/
theorem sameLetter_of_isBlank {l : Char} (hl : isLetter l = true) (hc : isBlank c = true) :
    sameLetter l c = false := by
  have hall : ∀ n ∈ letterCodes, ∀ m ∈ Ranges.codes blankRanges,
      sameLetter (Char.ofNat n) (Char.ofNat m) = false := by decide +kernel
  have h := hall _ (mem_letterCodes hl) _ (Ranges.mem_codes hc)
  rwa [Char.ofNat_toNat, Char.ofNat_toNat] at h

/-! Single steps -/

@[simp] theorem gap_squeeze (s : List Char) : gap (squeeze s) = (gap s).map squeeze := by
  cases s with
  | nil => rfl
  | cons c s =>
    cases hc : isBlank c with
    | false => rw [squeeze_mark hc, gap_of_stops (stops_cons.2 hc), gap_of_stops (stops_cons.2 hc)]; rfl
    | true => simp [squeeze_blank hc, gap, hc, skipBlanks_squeezeFrom]

theorem keyword_squeeze {w : List Char} (hw : ∀ l ∈ w, isLetter l = true) (s : List Char) :
    keyword w (squeeze s) = (keyword w s).map squeeze := by
  induction w generalizing s with
  | nil => rfl
  | cons l w ih =>
    obtain ⟨hl, hw⟩ := List.forall_mem_cons.1 hw
    cases s with
    | nil => rfl
    | cons c s =>
      cases hc : isBlank c with
      | true =>
        have hspace := sameLetter_of_isBlank hl isBlank_space
        rw [squeeze_blank hc, keyword_of_stops (stops_cons.2 hspace),
          keyword_of_stops (stops_cons.2 (sameLetter_of_isBlank hl hc))]
        rfl
      | false =>
        rw [squeeze_mark hc, keyword, keyword, ih hw]
        split <;> rfl

theorem mark_squeeze {m : Char} (hm : isBlank m = false) (s : List Char) :
    mark m (squeeze s) = (mark m s).map squeeze := by
  cases s with
  | nil => rfl
  | cons c s =>
    cases hc : isBlank c with
    | false =>
      rw [squeeze_mark hc, mark, mark]
      split <;> rfl
    | true =>
      have hne (d : Char) (hd : isBlank d = true) : (d == m) = false := dense_beq hm d hd
      rw [squeeze_blank hc, mark, mark, hne ' ' isBlank_space, hne c hc]
      rfl

theorem spacedMark_squeeze {m : Char} (hm : isBlank m = false) (s : List Char) :
    spacedMark m (squeeze s) = (spacedMark m s).map squeeze := by
  rw [spacedMark, skipBlanks_squeeze, mark_squeeze hm, spacedMark]

@[simp] theorem skipQuote_squeeze (s : List Char) : skipQuote (squeeze s) = squeeze (skipQuote s) := by
  cases s with
  | nil => rfl
  | cons c s =>
    cases hc : isBlank c with
    | false =>
      rw [squeeze_mark hc, skipQuote, skipQuote]
      split
      · rfl
      · rw [squeeze_mark hc]
    | true =>
      have hstops : Stops isQuote (c :: s) := stops_cons.2 (dense_isQuote c hc)
      rw [squeeze_blank hc, skipQuote_of_stops hstops, squeeze_blank hc]
      exact skipQuote_of_stops (stops_cons.2 (dense_isQuote ' ' isBlank_space))

@[simp] theorem wordEnds_squeeze (s : List Char) : wordEnds (squeeze s) = wordEnds s := by
  cases s with
  | nil => rfl
  | cons c s =>
    cases hc : isBlank c with
    | false => rw [squeeze_mark hc]; rfl
    | true =>
      rw [squeeze_blank hc, wordEnds, wordEnds, isWord_of_isBlank hc, isWord_of_isBlank isBlank_space]

theorem run_squeeze {p : Char → Bool} (hp : Dense p) (s : List Char) :
    run p (squeeze s) = (run p s).map (Prod.map id squeeze) := by
  unfold run
  rw [takeWhile_squeeze hp, dropWhile_squeeze hp]
  split <;> rfl

@[simp] theorem name_squeeze (s : List Char) : name (squeeze s) = (name s).map (Prod.map id squeeze) := by
  rw [name, skipQuote_squeeze, run_squeeze dense_isWord, name]
  cases run isWord (skipQuote s) with
  | none => rfl
  | some p => exact congrArg (fun r => some (p.1, r)) (skipQuote_squeeze p.2)

/-! Words and names -/

/-- Words of letters, at least one. -/
structure Spelled (ws : List (List Char)) : Prop where
  ne_nil : ws ≠ []
  words : ∀ w ∈ ws, w ≠ [] ∧ ∀ l ∈ w, isLetter l = true

instance (ws : List (List Char)) : Decidable (Spelled ws) :=
  decidable_of_iff (ws ≠ [] ∧ ∀ w ∈ ws, w ≠ [] ∧ ∀ l ∈ w, isLetter l = true)
    ⟨fun h => ⟨h.1, h.2⟩, fun h => ⟨h.1, h.2⟩⟩

theorem phrase_squeeze {ws : List (List Char)} (h : Spelled ws) (s : List Char) :
    phrase ws (squeeze s) = (phrase ws s).map squeeze := by
  obtain ⟨-, h⟩ := h
  fun_induction phrase ws s with
  | case1 s => rfl
  | case2 w s => exact keyword_squeeze (h w List.mem_cons_self).2 s
  | case3 w v ws s ih =>
    obtain ⟨hw, h⟩ := List.forall_mem_cons.1 h
    rw [phrase, keyword_squeeze hw.2]
    refine map_bind_congr fun r => ?_
    rw [gap_squeeze]
    exact map_bind_congr fun u => ih u h

theorem phrase_of_blank {ws : List (List Char)} (h : Spelled ws) (hc : isBlank c = true) :
    phrase ws (c :: s) = none := by
  have hfirst : ∀ w ∈ ws, keyword w (c :: s) = none := by
    intro w hw
    obtain ⟨hne, hletters⟩ := h.words w hw
    obtain ⟨l, w, rfl⟩ := List.exists_cons_of_ne_nil hne
    exact keyword_of_stops (stops_cons.2 (sameLetter_of_isBlank (hletters l List.mem_cons_self) hc))
  match ws, h.ne_nil with
  | [w], _ => exact hfirst w List.mem_cons_self
  | w :: v :: ws, _ => rw [phrase, hfirst w List.mem_cons_self]; rfl

theorem keyword_of_blank {w : List Char} (h : Spelled [w]) (hc : isBlank c = true) :
    keyword w (c :: s) = none := phrase_of_blank h hc

theorem hasPhrase_squeezeFrom {ws : List (List Char)} (h : Spelled ws) {b inWord : Bool}
    (hb : b = true → inWord = false) (s : List Char) :
    hasPhrase ws inWord (squeezeFrom b s) = hasPhrase ws inWord s := by
  induction s generalizing b inWord with
  | nil => rfl
  | cons c s ih =>
    cases hc : isBlank c with
    | false =>
      rw [squeezeFrom_mark hc, hasPhrase, hasPhrase, ← squeeze_mark hc, phrase_squeeze h, squeeze,
        ih (by simp)]
      cases phrase ws (c :: s) with
      | none => rfl
      | some r => simp
    | true =>
      have hnext : hasPhrase ws inWord (c :: s) = hasPhrase ws false s := by
        rw [hasPhrase, phrase_of_blank h hc, isWord_of_isBlank hc]
        simp
      rw [hnext, ← ih (b := true) fun _ => rfl]
      cases b with
      | true => rw [squeezeFrom_blank hc, hb rfl]
      | false =>
        rw [squeezeFrom_false, squeeze_blank hc, hasPhrase, phrase_of_blank h isBlank_space,
          isWord_of_isBlank isBlank_space]
        simp

theorem hasPhrase_squeeze {ws : List (List Char)} (h : Spelled ws) (s : List Char) :
    hasPhrase ws false (squeeze s) = hasPhrase ws false s :=
  hasPhrase_squeezeFrom h (by simp) s

@[simp] theorem parenthesisedName_squeeze (s : List Char) :
    parenthesisedName (squeeze s) = (parenthesisedName s).map (Prod.map id squeeze) := by
  unfold parenthesisedName
  rw [spacedMark_squeeze (by decide)]
  refine map_bind_congr fun t => ?_
  rw [skipBlanks_squeeze, name_squeeze]
  refine map_bind_congr fun p => ?_
  simp only [Prod.map, id_eq, spacedMark_squeeze (m := ')') (by decide)]
  cases spacedMark ')' p.2 <;> rfl

end SchemaDesign.Ddl
