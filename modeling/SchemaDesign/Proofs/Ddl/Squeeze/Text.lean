import SchemaDesign.Proofs.Ddl.Layout

/-! Texts in which each run of blanks is squeezed to one space. A scan that takes up a blank in the same
way whichever it is finds the same there. -/
namespace SchemaDesign.Ddl
open Text

/-- The text with one space in the place of each run of blanks. `inRun` tells whether a blank precedes the
text. -/
def squeezeFrom (inRun : Bool) : List Char → List Char
  | [] => []
  | c :: s =>
      if isBlank c then
        if inRun then squeezeFrom true s else ' ' :: squeezeFrom true s
      else c :: squeezeFrom false s

def squeeze (s : List Char) : List Char := squeezeFrom false s

variable {b : Bool} {c m : Char} {s t : List Char}

@[simp] theorem squeezeFrom_nil (b : Bool) : squeezeFrom b [] = [] := rfl

@[simp] theorem squeezeFrom_false (s : List Char) : squeezeFrom false s = squeeze s := rfl

@[simp] theorem squeeze_nil : squeeze [] = [] := rfl

theorem squeezeFrom_mark (h : isBlank c = false) : squeezeFrom b (c :: s) = c :: squeeze s := by
  rw [squeezeFrom, if_neg (by simp [h])]
  rfl

theorem squeeze_mark (h : isBlank c = false) : squeeze (c :: s) = c :: squeeze s := squeezeFrom_mark h

theorem squeezeFrom_blank (h : isBlank c = true) : squeezeFrom true (c :: s) = squeezeFrom true s := by
  rw [squeezeFrom, if_pos h]
  rfl

theorem squeeze_blank (h : isBlank c = true) : squeeze (c :: s) = ' ' :: squeezeFrom true s := by
  rw [squeeze, squeezeFrom, if_pos h]
  rfl

theorem ne_of_isBlank (hc : isBlank c = true) (hm : isBlank m = false) : c ≠ m := by
  rintro rfl
  rw [hc] at hm
  cases hm

/-! Runs of blanks -/

theorem squeezeFrom_of_stops (h : Stops isBlank s) : squeezeFrom true s = squeeze s := by
  cases s with
  | nil => rfl
  | cons c s =>
    rw [stops_cons] at h
    rw [squeezeFrom_mark h, squeeze_mark h]

theorem squeeze_run (hne : t ≠ []) (ht : ∀ c ∈ t, isBlank c = true) (s : List Char) :
    squeeze (t ++ s) = ' ' :: squeezeFrom true s := by
  have hrun : ∀ t : List Char, (∀ c ∈ t, isBlank c = true) →
      squeezeFrom true (t ++ s) = squeezeFrom true s := by
    intro t ht
    induction t with
    | nil => rfl
    | cons c t ih =>
      obtain ⟨hc, ht⟩ := List.forall_mem_cons.1 ht
      rw [List.cons_append, squeezeFrom_blank hc, ih ht]
  obtain ⟨c, t, rfl⟩ := List.exists_cons_of_ne_nil hne
  obtain ⟨hc, ht⟩ := List.forall_mem_cons.1 ht
  rw [List.cons_append, squeeze_blank hc, hrun t ht]

/-- A text that begins with a blank begins with a run of them. -/
theorem exists_run (hc : isBlank c = true) (s : List Char) :
    ∃ t r, c :: s = t ++ r ∧ t ≠ [] ∧ (∀ d ∈ t, isBlank d = true) ∧ Stops isBlank r ∧
      r.length ≤ s.length := by
  have hskip : (c :: s).dropWhile isBlank = skipBlanks s := by simp [skipBlanks, hc]
  refine ⟨(c :: s).takeWhile isBlank, skipBlanks s, ?_, by simp [hc],
    fun d hd => List.mem_takeWhile_imp hd, ?_, (skipBlanks_suffix s).length_le⟩
  · rw [← hskip, List.takeWhile_append_dropWhile]
  · intro d hd
    have hnot := List.head?_dropWhile_not isBlank s
    rw [← skipBlanks, Option.mem_def.1 hd] at hnot
    exact hnot

/-- Induction along the characters that are no blanks and the runs of blanks between them. -/
theorem runs_induction {P : List Char → Prop} (nil : P [])
    (mark : ∀ c s, isBlank c = false → P s → P (c :: s))
    (run : ∀ t s, t ≠ [] → (∀ c ∈ t, isBlank c = true) → Stops isBlank s → P s → P (t ++ s))
    (s : List Char) : P s := by
  induction hs : s.length using Nat.strong_induction_on generalizing s with
  | _ n ih =>
    subst hs
    cases s with
    | nil => exact nil
    | cons c s =>
      cases hc : isBlank c with
      | false => exact mark c s hc (ih _ (Nat.lt_succ_self _) s rfl)
      | true =>
        obtain ⟨t, r, hsplit, hne, ht, hr, hlength⟩ := exists_run hc s
        rw [hsplit]
        exact run t r hne ht hr (ih _ (Nat.lt_succ_of_le hlength) r rfl)

theorem Stops.squeeze (h : Stops isBlank s) : Stops isBlank (squeeze s) := by
  cases s with
  | nil => exact h
  | cons c s =>
    rw [stops_cons] at h
    rw [squeeze_mark h, stops_cons]
    exact h

@[simp] theorem squeeze_squeeze (s : List Char) : squeeze (squeeze s) = squeeze s := by
  refine runs_induction (P := fun s => squeeze (squeeze s) = squeeze s) rfl ?_ ?_ s
  · intro c s hc ih
    rw [squeeze_mark hc, squeeze_mark hc, ih]
  · intro x s hx blanks hs ih
    rw [squeeze_run hx blanks, squeezeFrom_of_stops hs, squeeze_blank isBlank_space,
      squeezeFrom_of_stops hs.squeeze, ih]

/-- Behind a character that is no blank a text is squeezed on its own. -/
theorem squeezeFrom_append_mark (h : isBlank c = false) :
    squeezeFrom b (s ++ c :: t) = squeezeFrom b s ++ c :: squeeze t := by
  induction s generalizing b with
  | nil => exact squeezeFrom_mark h
  | cons d s ih =>
    cases hd : isBlank d with
    | false =>
      rw [List.cons_append, squeezeFrom_mark hd, squeezeFrom_mark hd, squeeze, ih]
      rfl
    | true =>
      cases b with
      | true => rw [List.cons_append, squeezeFrom_blank hd, squeezeFrom_blank hd, ih]
      | false =>
        rw [List.cons_append, squeezeFrom_false, squeezeFrom_false, squeeze_blank hd,
          squeeze_blank hd, ih]
        rfl

theorem squeeze_append_mark (h : isBlank c = false) :
    squeeze (s ++ c :: t) = squeeze s ++ c :: squeeze t := squeezeFrom_append_mark h

theorem squeeze_eq_nil : squeeze s = [] ↔ s = [] := by
  cases s with
  | nil => simp
  | cons c s => cases hc : isBlank c <;> simp [squeeze_mark, squeeze_blank, hc]

theorem isEmpty_squeeze (s : List Char) : (squeeze s).isEmpty = s.isEmpty := by
  rw [Bool.eq_iff_iff, List.isEmpty_iff, List.isEmpty_iff, squeeze_eq_nil]

theorem squeeze_of_forall (h : ∀ c ∈ s, isBlank c = false) : squeeze s = s := by
  induction s with
  | nil => rfl
  | cons c s ih =>
    obtain ⟨hc, h⟩ := List.forall_mem_cons.1 h
    rw [squeeze_mark hc, ih h]

/-! Scans that take up every blank alike -/

/-- A scan that puts a blank before what the rest comes to, by `keep`. What it comes to shrinks as the
text is squeezed: all blanks of a run but the first are left out of it, and the first becomes a space. -/
structure Shrinks {α : Type} (scan : List Char → α) (keep : Char → α → α) (shrink : Bool → α → α) :
    Prop where
  nil : ∀ b, scan [] = shrink b (scan [])
  blank : ∀ {c} s, isBlank c = true → scan (c :: s) = keep c (scan s)
  first : ∀ {c} a, isBlank c = true → keep ' ' (shrink true a) = shrink false (keep c a)
  later : ∀ {c} a, isBlank c = true → shrink true a = shrink true (keep c a)
  mark : ∀ b {c s}, isBlank c = false → scan (squeeze s) = shrink false (scan s) →
    scan (c :: squeeze s) = shrink b (scan (c :: s))

theorem Shrinks.scan_squeezeFrom {α : Type} {scan : List Char → α} {keep : Char → α → α}
    {shrink : Bool → α → α} (h : Shrinks scan keep shrink) (b : Bool) (s : List Char) :
    scan (squeezeFrom b s) = shrink b (scan s) := by
  induction s generalizing b with
  | nil => exact h.nil b
  | cons c s ih =>
    cases hc : isBlank c with
    | false => rw [squeezeFrom_mark hc, h.mark b hc (ih false)]
    | true =>
      cases b with
      | true => rw [squeezeFrom_blank hc, ih, h.blank s hc, ← h.later _ hc]
      | false =>
        rw [squeezeFrom_false, squeeze_blank hc, h.blank _ isBlank_space, ih, h.blank s hc,
          ← h.first _ hc]

theorem shrinks_skipBlanks : Shrinks skipBlanks (fun _ a => a) fun _ => squeeze where
  nil := fun _ => rfl
  blank := fun s hc => by simp [skipBlanks, hc]
  first := fun _ _ => rfl
  later := fun _ _ => rfl
  mark := by
    intro b c s hc _
    rw [skipBlanks_of_stops (stops_cons.2 hc), skipBlanks_of_stops (stops_cons.2 hc), squeeze_mark hc]

theorem skipBlanks_squeezeFrom (b : Bool) (s : List Char) :
    skipBlanks (squeezeFrom b s) = squeeze (skipBlanks s) := shrinks_skipBlanks.scan_squeezeFrom b s

@[simp] theorem skipBlanks_squeeze (s : List Char) : skipBlanks (squeeze s) = squeeze (skipBlanks s) :=
  skipBlanks_squeezeFrom false s

theorem squeeze_reverse (s : List Char) : squeeze s.reverse = (squeeze s).reverse := by
  refine runs_induction (P := fun s => squeeze s.reverse = (squeeze s).reverse) rfl ?_ ?_ s
  · intro c s hc ih
    rw [List.reverse_cons, squeeze_append_mark hc, ih, squeeze_mark hc, List.reverse_cons, squeeze_nil]
  · intro t s hne ht hs ih
    have ht' : ∀ c ∈ t.reverse, isBlank c = true := fun c hc => ht c (List.mem_reverse.1 hc)
    have hblanks : squeeze t.reverse = [' '] := by
      have hrun := squeeze_run (List.reverse_ne_nil_iff.2 hne) ht' []
      rwa [List.append_nil] at hrun
    rw [List.reverse_append, squeeze_run hne ht, squeezeFrom_of_stops hs, List.reverse_cons, ← ih]
    cases s with
    | nil => exact hblanks
    | cons c s =>
      rw [stops_cons] at hs
      rw [List.reverse_cons, List.append_assoc, List.singleton_append, squeeze_append_mark hs,
        squeeze_append_mark hs, hblanks, List.append_assoc]
      rfl

@[simp] theorem trim_squeeze (s : List Char) : trim (squeeze s) = squeeze (trim s) := by
  have hend (r : List Char) : trimEnd (squeeze r) = squeeze (trimEnd r) := by
    have hskip : (squeeze r.reverse).dropWhile isBlank = squeeze (r.reverse.dropWhile isBlank) :=
      skipBlanks_squeeze r.reverse
    rw [trimEnd, trimEnd, ← squeeze_reverse, hskip, squeeze_reverse]
  have hstart : trimStart (squeeze s) = squeeze (trimStart s) := skipBlanks_squeeze s
  rw [trim, hstart, hend, trim]

/-! Classes of characters -/

/-- A class of characters that holds no blank. -/
def Dense (p : Char → Bool) : Prop := ∀ c, isBlank c = true → p c = false

theorem dense_isWord : Dense isWord := fun _ => isWord_of_isBlank

theorem dense_isLetter : Dense isLetter := by
  intro c hc
  by_contra h
  have hw := isWord_of_isLetter (Bool.not_eq_false _ ▸ h)
  rw [isWord_of_isBlank hc] at hw
  cases hw

theorem dense_isNameChar : Dense isNameChar := by
  intro c hc
  simp [isNameChar, hc]

theorem dense_isDigit : Dense isDigit := by
  intro c hc
  have hall : ∀ n ∈ Ranges.codes blankRanges, digitRanges.covers n = false := by decide +kernel
  exact hall _ (Ranges.mem_codes hc)

theorem dense_isQuote : Dense isQuote := by
  intro c hc
  have hall : ∀ n ∈ Ranges.codes blankRanges, isQuote (Char.ofNat n) = false := by decide +kernel
  rw [← Char.ofNat_toNat c]
  exact hall _ (Ranges.mem_codes hc)

theorem dense_beq (hm : isBlank m = false) : Dense (· == m) :=
  fun _ hc => beq_eq_false_iff_ne.2 (ne_of_isBlank hc hm)

theorem dense_not_isBlank : Dense (!isBlank ·) := by
  intro c hc
  simp [hc]

variable {p : Char → Bool}

theorem takeWhile_squeeze (hp : Dense p) (s : List Char) :
    (squeeze s).takeWhile p = s.takeWhile p := by
  induction s with
  | nil => rfl
  | cons c s ih =>
    cases hc : isBlank c with
    | false => rw [squeeze_mark hc, List.takeWhile_cons, List.takeWhile_cons, ih]
    | true => simp [squeeze_blank hc, hp c hc, hp ' ' isBlank_space]

theorem dropWhile_squeeze (hp : Dense p) (s : List Char) :
    (squeeze s).dropWhile p = squeeze (s.dropWhile p) := by
  induction s with
  | nil => rfl
  | cons c s ih =>
    cases hc : isBlank c with
    | false =>
      rw [squeeze_mark hc, List.dropWhile_cons, List.dropWhile_cons, ih]
      split
      · rfl
      · rw [squeeze_mark hc]
    | true => simp [squeeze_blank hc, hp c hc, hp ' ' isBlank_space]

theorem all_squeeze (hp : Dense p) (s : List Char) : (squeeze s).all p = s.all p := by
  induction s with
  | nil => rfl
  | cons c s ih =>
    cases hc : isBlank c with
    | false => rw [squeeze_mark hc, List.all_cons, List.all_cons, ih]
    | true =>
      rw [squeeze_blank hc, List.all_cons, List.all_cons, hp c hc, hp ' ' isBlank_space]
      rfl

/-! Up to a mark -/

theorem shrinks_takeWhile_ne (hm : isBlank m = false) :
    Shrinks (List.takeWhile (· != m)) List.cons squeezeFrom where
  nil := fun _ => rfl
  blank := fun s hc => List.takeWhile_cons_of_pos (p := (· != m)) (by simpa using ne_of_isBlank hc hm)
  first := fun _ hc => (squeeze_blank hc).symm
  later := fun _ hc => (squeezeFrom_blank hc).symm
  mark := by
    intro b c s hc ih
    rw [List.takeWhile_cons, List.takeWhile_cons, ih]
    split
    · exact (squeezeFrom_mark hc).symm
    · rfl

theorem shrinks_dropWhile_ne (hm : isBlank m = false) :
    Shrinks (List.dropWhile (· != m)) (fun _ a => a) fun _ => squeeze where
  nil := fun _ => rfl
  blank := fun s hc => List.dropWhile_cons_of_pos (p := (· != m)) (by simpa using ne_of_isBlank hc hm)
  first := fun _ _ => rfl
  later := fun _ _ => rfl
  mark := by
    intro b c s hc ih
    rw [List.dropWhile_cons, List.dropWhile_cons, ih]
    split
    · rfl
    · exact (squeeze_mark hc).symm

theorem takeWhile_ne_squeeze (hm : isBlank m = false) (s : List Char) :
    (squeeze s).takeWhile (· != m) = squeeze (s.takeWhile (· != m)) :=
  (shrinks_takeWhile_ne hm).scan_squeezeFrom false s

theorem dropWhile_ne_squeeze (hm : isBlank m = false) (s : List Char) :
    (squeeze s).dropWhile (· != m) = squeeze (s.dropWhile (· != m)) :=
  (shrinks_dropWhile_ne hm).scan_squeezeFrom false s

/-! Cut at marks -/

/-- The squeezed parts of a text. `inRun` tells whether a blank precedes the first. -/
def squeezeParts (inRun : Bool) : List (List Char) → List (List Char)
  | [] => []
  | p :: ps => squeezeFrom inRun p :: ps.map squeeze

theorem squeezeParts_false (ps : List (List Char)) : squeezeParts false ps = ps.map squeeze := by
  cases ps <;> rfl

theorem squeezeParts_first (hc : isBlank c = true) (ps : List (List Char)) :
    (squeezeParts true ps).modifyHead (' ' :: ·) = squeezeParts false (ps.modifyHead (c :: ·)) := by
  cases ps with
  | nil => rfl
  | cons p ps => simp only [squeezeParts, List.modifyHead_cons, squeezeFrom_false, squeeze_blank hc]

theorem squeezeParts_later (hc : isBlank c = true) (ps : List (List Char)) :
    squeezeParts true ps = squeezeParts true (ps.modifyHead (c :: ·)) := by
  cases ps with
  | nil => rfl
  | cons p ps => simp only [squeezeParts, List.modifyHead_cons, squeezeFrom_blank hc]

theorem squeezeParts_mark (hc : isBlank c = false) (b : Bool) (ps : List (List Char)) :
    (ps.map squeeze).modifyHead (c :: ·) = squeezeParts b (ps.modifyHead (c :: ·)) := by
  cases ps with
  | nil => rfl
  | cons p ps => simp only [squeezeParts, List.map_cons, List.modifyHead_cons, squeezeFrom_mark hc]

theorem shrinks_splitOnP (hm : isBlank m = false) :
    Shrinks (List.splitOnP (· == m)) (fun c ps => ps.modifyHead (c :: ·)) squeezeParts where
  nil := fun _ => rfl
  blank := by
    intro c s hc
    rw [List.splitOnP_cons_eq_if_modifyHead, if_neg (by simpa using ne_of_isBlank hc hm)]
  first := fun ps hc => squeezeParts_first hc ps
  later := fun ps hc => squeezeParts_later hc ps
  mark := by
    intro b c s hc ih
    rw [List.splitOnP_cons_eq_if_modifyHead, List.splitOnP_cons_eq_if_modifyHead, ih, squeezeParts_false]
    split
    · rfl
    · exact squeezeParts_mark hc b _

theorem splitOnP_squeeze (hm : isBlank m = false) (s : List Char) :
    (squeeze s).splitOnP (· == m) = (s.splitOnP (· == m)).map squeeze := by
  rw [← squeezeParts_false]
  exact (shrinks_splitOnP hm).scan_squeezeFrom false s

end SchemaDesign.Ddl
