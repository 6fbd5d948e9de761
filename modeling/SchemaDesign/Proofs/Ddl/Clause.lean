import SchemaDesign.Proofs.Ddl.Cut
import SchemaDesign.Proofs.Ddl.Scan

/-! When a name with text behind it is taken for a clause of the table, and what a piece that is a key
clause must begin with. -/
namespace SchemaDesign.Ddl
open Text

/-- A text is a given word, case apart. -/
def spells (w s : List Char) : Bool := keyword w s == some []

/-- A text begins with a given word, case apart, and the word ends there. -/
def leads (w s : List Char) : Bool := (keyword w s).any wordEnds

theorem isNameChar_spec {c : Char} (h : isNameChar c = true) :
    isBlank c = false ∧ isQuote c = false ∧ isFlat c = true := by
  simp only [isNameChar, Bool.and_eq_true, Bool.not_eq_true', bne_iff_ne] at h
  obtain ⟨⟨⟨⟨hb, hq⟩, hcomma⟩, ho⟩, hc⟩ := h
  exact ⟨hb, hq, by simp [isFlat, hcomma, ho, hc]⟩

theorem wordEnds_of_stops {s : List Char} (h : Stops isWord s) : wordEnds s = true := by
  cases s with
  | nil => rfl
  | cons c s => simpa [wordEnds] using h

theorem keyword_append (w v s : List Char) : keyword (w ++ v) s = (keyword w s).bind (keyword v) := by
  induction w generalizing s with
  | nil => rfl
  | cons l w ih =>
    cases s with
    | nil => rfl
    | cons c s =>
      rw [List.cons_append, keyword, keyword]
      split
      · exact ih s
      · rfl

theorem keyword_subset {w s rest : List Char} (h : keyword w s = some rest) {P : Char → Prop}
    (hs : ∀ c ∈ s, P c) : ∀ c ∈ rest, P c := fun c hc => hs c ((keyword_suffix h).subset hc)

/-- A word before text that cannot go on with it. -/
theorem leads_append {w s t : List Char} (hw : ∀ l ∈ w, Stops (sameLetter l) t)
    (hs : ∀ c ∈ s, isLetter c = true) (ht : Stops isWord t) : leads w (s ++ t) = spells w s := by
  unfold leads spells
  rw [keyword_append_stop hw]
  cases hk : keyword w s with
  | none => rfl
  | some rest =>
    cases rest with
    | nil => simp [wordEnds_of_stops ht]
    | cons c rest =>
      have hc := keyword_subset hk hs c List.mem_cons_self
      simp [wordEnds, isWord_of_isLetter hc]

theorem leads_of_spells {w s t : List Char} (hw : ∀ l ∈ w, Stops (sameLetter l) t)
    (ht : Stops isWord t) (h : spells w s = true) : leads w (s ++ t) = true := by
  have hk : keyword w s = some [] := by simpa [spells] using h
  simp [leads, keyword_append_stop hw, hk, wordEnds_of_stops ht]

/-- The plain letter that a character stands for, where it stands for one. -/
def plainLetter (c : Char) : Char :=
  if c.toNat = 304 ∨ c.toNat = 305 then 'i'
  else if c.toNat = 383 then 's'
  else if c.toNat = 8490 then 'k'
  else c.toLower

theorem sameLetter_plain {l c : Char} (hl : l.toLower.toNat < 128) (h : sameLetter l c = true) :
    l.toLower = plainLetter c := by
  have hcode : ∀ n ∈ [304, 305, 383, 8490], c.toNat = n → l.toLower ≠ c.toLower := by
    intro n hn hc he
    have hc : c = Char.ofNat n := by rw [← hc, Char.ofNat_toNat]
    have hbig : ∀ n ∈ [304, 305, 383, 8490], 128 ≤ (Char.ofNat n).toLower.toNat := by decide
    have := hbig n hn
    rw [← hc, ← he] at this
    omega
  simp only [sameLetter, Bool.or_eq_true, Bool.and_eq_true, beq_iff_eq] at h
  unfold plainLetter
  split
  · next hc =>
    rcases h with ((h | h) | h) | h
    · rcases hc with hc | hc <;> exact absurd h (hcode _ (by simp) hc)
    · exact h.1
    · omega
    · omega
  · split
    · next hc =>
      rcases h with ((h | h) | h) | h
      · exact absurd h (hcode _ (by simp) hc)
      · omega
      · exact h.1
      · omega
    · split
      · next hc =>
        rcases h with ((h | h) | h) | h
        · exact absurd h (hcode _ (by simp) hc)
        · omega
        · omega
        · exact h.1
      · rcases h with ((h | h) | h) | h
        · exact h
        · omega
        · omega
        · omega

/-- Words that begin with different letters do not begin the same text. -/
theorem keyword_unique {l m : Char} {w v s r : List Char} (hl : l.toLower.toNat < 128)
    (hm : m.toLower.toNat < 128) (hne : l.toLower ≠ m.toLower) (h : keyword (l :: w) s = some r) :
    keyword (m :: v) s = none := by
  cases s with
  | nil => rfl
  | cons c s =>
    cases hc : sameLetter l c with
    | false =>
      rw [keyword_of_stops (stops_cons.2 hc)] at h
      cases h
    | true =>
      cases hc' : sameLetter m c with
      | false => exact keyword_of_stops (stops_cons.2 hc')
      | true => exact absurd ((sameLetter_plain hl hc).trans (sameLetter_plain hm hc').symm) hne

/-- Where both words of an index could stand, at most one does. -/
theorem indexWord_any (s : List Char) :
    (indexWord s).any wordEnds = (leads "INDEX".toList s || leads "KEY".toList s) := by
  unfold indexWord leads
  cases hi : keyword "INDEX".toList s with
  | none => rfl
  | some r =>
    have hkey : keyword "KEY".toList s = none :=
      keyword_unique (l := 'I') (m := 'K') (by decide) (by decide) (by decide) hi
    rw [hkey]
    simp

theorem wordEnds_of_spacedMark {m : Char} (hm : isWord m = false) {s r : List Char}
    (h : spacedMark m s = some r) : wordEnds s = true := by
  cases s with
  | nil => rfl
  | cons c s =>
    cases hb : isBlank c with
    | true => simp [wordEnds, isWord_of_isBlank hb]
    | false =>
      rw [spacedMark, skipBlanks_of_stops (stops_cons.2 hb)] at h
      simp only [mark] at h
      split at h
      · next hc =>
        rw [beq_iff_eq] at hc
        simp [wordEnds, hc, hm]
      · cases h

theorem isTableClause_of_keyWords {s : List Char} (h : keyWords ((constraintName s).getD s) = true) :
    isTableClause s = true := by
  unfold isTableClause
  cases hc : constraintName s with
  | none =>
    rw [hc, Option.getD_none] at h
    simp [h]
  | some u =>
    rw [hc, Option.getD_some] at h
    simp [h]

/-- A name in parentheses leaves the word before it ended. -/
theorem wordEnds_of_parenthesisedName {s found rest : List Char}
    (h : parenthesisedName s = some (found, rest)) : wordEnds s = true := by
  obtain ⟨t, ht, -⟩ := Option.bind_eq_some_iff.1 h
  exact wordEnds_of_spacedMark (by decide +kernel) ht

theorem isTableClause_of_primaryKeyClause? {s : List Char} {k : String}
    (h : primaryKeyClause? s = some k) : isTableClause s = true := by
  obtain ⟨u, hu, h⟩ := Option.bind_eq_some_iff.1 h
  obtain ⟨⟨found, rest⟩, hn, -⟩ := Option.bind_eq_some_iff.1 h
  refine isTableClause_of_keyWords ?_
  simp only [keyWords, hu, Option.orElse_some, Option.any_some, wordEnds_of_parenthesisedName hn]

theorem isTableClause_of_foreignKeyClause? {s : List Char} {k : String × Target}
    (h : foreignKeyClause? s = some k) : isTableClause s = true := by
  obtain ⟨u, hu, h⟩ := Option.bind_eq_some_iff.1 h
  obtain ⟨⟨found, rest⟩, hn, -⟩ := Option.bind_eq_some_iff.1 h
  refine isTableClause_of_keyWords ?_
  obtain ⟨v, hv, -⟩ := Option.bind_eq_some_iff.1 hu
  have hprimary : keyword "PRIMARY".toList ((constraintName s).getD s) = none :=
    keyword_unique (l := 'F') (m := 'P') (by decide) (by decide) (by decide) hv
  have hnone : phrase ["PRIMARY".toList, "KEY".toList] ((constraintName s).getD s) = none := by
    simp only [phrase, hprimary, Option.bind_eq_bind, Option.bind_none]
  simp only [keyWords, hnone, hu, Option.orElse_none, Option.any_some,
    wordEnds_of_parenthesisedName hn]

section NameBefore

variable {n r : List Char}

theorem keyword_name (w n r : List Char) (hw : ∀ l ∈ w, sameLetter l ' ' = false) :
    keyword w (n ++ ' ' :: r) = (keyword w n).map (· ++ ' ' :: r) :=
  keyword_append_stop (fun l hl => stops_cons.2 (hw l hl)) n

theorem skipBlanks_name (hn : ∀ c ∈ n, isNameChar c = true) (hr : Stops isBlank r) :
    skipBlanks (n ++ ' ' :: r) = if n = [] then r else n ++ ' ' :: r := by
  cases n with
  | nil => exact skipBlanks_space hr
  | cons c n =>
    exact skipBlanks_of_stops (stops_cons.2 (isNameChar_spec (hn c List.mem_cons_self)).1)

theorem gap_name (hn : ∀ c ∈ n, isNameChar c = true) (hr : Stops isBlank r) :
    gap (n ++ ' ' :: r) = if n = [] then some r else none := by
  cases n with
  | nil => exact gap_space hr
  | cons c n => exact gap_of_stops (stops_cons.2 (isNameChar_spec (hn c List.mem_cons_self)).1)

theorem spacedMark_name (hn : ∀ c ∈ n, isNameChar c = true) (hr : Stops isBlank r)
    (ho : Stops (· == '(') r) : spacedMark '(' (n ++ ' ' :: r) = none := by
  have hmark : ∀ {s : List Char}, Stops (· == '(') s → mark '(' s = none := by
    intro s hs
    cases s with
    | nil => rfl
    | cons c s =>
      rw [stops_cons] at hs
      simp only [mark, hs, Bool.false_eq_true, if_false]
  rw [spacedMark, skipBlanks_name hn hr]
  split
  · exact hmark ho
  · cases n with
    | nil => contradiction
    | cons c n =>
      have hc := (isFlat_spec (isNameChar_spec (hn c List.mem_cons_self)).2.2).1
      exact hmark (stops_cons.2 (by simpa using hc))

/-- Two words, the first of which has to be the name. -/
theorem phrase_name {w v : List Char} (hw : ∀ l ∈ w, sameLetter l ' ' = false)
    (hn : ∀ c ∈ n, isNameChar c = true) (hr : Stops isBlank r) :
    phrase [w, v] (n ++ ' ' :: r) = if spells w n then keyword v r else none := by
  unfold spells
  simp only [phrase, keyword_name w n r hw]
  cases hk : keyword w n with
  | none => rfl
  | some rest =>
    have hrest := keyword_subset hk hn
    simp only [Option.map_some, Option.bind_eq_bind, Option.bind_some, gap_name hrest hr]
    cases rest with
    | nil => rfl
    | cons c rest => rfl

theorem keyWords_name (hn : ∀ c ∈ n, isNameChar c = true) (hr : Stops isBlank r) :
    keyWords (n ++ ' ' :: r) =
      ((spells "PRIMARY".toList n || spells "FOREIGN".toList n) && leads "KEY".toList r) := by
  have hp : ∀ l ∈ "PRIMARY".toList, sameLetter l ' ' = false := by decide
  have hf : ∀ l ∈ "FOREIGN".toList, sameLetter l ' ' = false := by decide
  unfold keyWords leads
  rw [phrase_name hp hn hr, phrase_name hf hn hr]
  cases spells "PRIMARY".toList n <;> cases spells "FOREIGN".toList n <;>
    cases keyword "KEY".toList r <;> rfl

/-- A word with one that follows it at once. -/
theorem leads_joined (w v s : List Char) : leads (w ++ v) s = (keyword w s).any (leads v) := by
  unfold leads
  rw [keyword_append]
  cases keyword w s <;> rfl

theorem leads_name {w : List Char} (hw : ∀ l ∈ w, sameLetter l ' ' = false) :
    leads w (n ++ ' ' :: r) = leads w n := by
  unfold leads
  rw [keyword_name w n r hw]
  cases keyword w n with
  | none => rfl
  | some rest =>
    cases rest with
    | nil =>
      have hspace : Stops isWord (' ' :: r) := stops_cons.2 (by decide +kernel)
      exact wordEnds_of_stops hspace
    | cons c rest => rfl

theorem uniqueWords_name (hn : ∀ c ∈ n, isNameChar c = true) (hr : Stops isBlank r)
    (ho : Stops (· == '(') r) :
    uniqueWords (n ++ ' ' :: r) =
      (spells "UNIQUE".toList n && (leads "INDEX".toList r || leads "KEY".toList r) ||
        (leads ("UNIQUE".toList ++ "INDEX".toList) n ||
          leads ("UNIQUE".toList ++ "KEY".toList) n)) := by
  have hu : ∀ l ∈ "UNIQUE".toList, sameLetter l ' ' = false := by decide
  have hi : ∀ l ∈ "INDEX".toList, sameLetter l ' ' = false := by decide
  have hk : ∀ l ∈ "KEY".toList, sameLetter l ' ' = false := by decide
  unfold uniqueWords
  rw [leads_joined, leads_joined, keyword_name _ n r hu]
  unfold spells
  cases hkey : keyword "UNIQUE".toList n with
  | none => rfl
  | some rest =>
    have hrest := keyword_subset hkey hn
    simp only [Option.map_some, Option.any_some, spacedMark_name hrest hr ho, Option.isSome_none,
      Bool.false_or, skipBlanks_name hrest hr, indexWord_any]
    cases rest with
    | nil =>
      have hi : leads "INDEX".toList [] = false := rfl
      have hk : leads "KEY".toList [] = false := rfl
      simp only [hi, hk, if_true, beq_self_eq_true, Bool.true_and, Bool.or_false]
    | cons c rest =>
      simp only [List.cons_ne_nil, if_false, leads_name hi, leads_name hk]
      rfl

theorem checkWords_name (hn : ∀ c ∈ n, isNameChar c = true) (hr : Stops isBlank r)
    (ho : Stops (· == '(') r) : checkWords (n ++ ' ' :: r) = false := by
  have hc : ∀ l ∈ "CHECK".toList, sameLetter l ' ' = false := by decide
  unfold checkWords
  rw [keyword_name _ n r hc]
  cases hkey : keyword "CHECK".toList n with
  | none => rfl
  | some rest =>
    simp only [Option.map_some, Option.bind_some, spacedMark_name (keyword_subset hkey hn) hr ho,
      Option.isSome_none]

/-- The words of an index need a list of columns behind the name. -/
theorem indexWords_name (hn : ∀ c ∈ n, isNameChar c = true) (hr : Stops isBlank r)
    (ho : Stops (· == '(') r)
    (hcolumns : ∀ found rest, name r = some (found, rest) →
      ∀ inner, spacedMark '(' rest = some inner → namesColumn (skipBlanks inner) = false) :
    indexWords (n ++ ' ' :: r) = false := by
  have hi : ∀ l ∈ "INDEX".toList, sameLetter l ' ' = false := by decide
  have hk : ∀ l ∈ "KEY".toList, sameLetter l ' ' = false := by decide
  have hword : ∀ rest, indexWord (n ++ ' ' :: r) = some rest →
      ∃ m, (∀ c ∈ m, isNameChar c = true) ∧ rest = m ++ ' ' :: r := by
    intro rest h
    unfold indexWord at h
    rw [keyword_name _ n r hi, keyword_name _ n r hk] at h
    cases hfirst : keyword "INDEX".toList n with
    | some m =>
      rw [hfirst] at h
      cases h
      exact ⟨m, keyword_subset hfirst hn, rfl⟩
    | none =>
      rw [hfirst] at h
      obtain ⟨m, hm, rfl⟩ := Option.map_eq_some_iff.1 h
      exact ⟨m, keyword_subset hm hn, rfl⟩
  unfold indexWords
  cases hw : indexWord (n ++ ' ' :: r) with
  | none => rfl
  | some rest =>
    obtain ⟨m, hm, rfl⟩ := hword rest hw
    simp only [Option.any_some, spacedMark_name hm hr ho, Option.isSome_none, Bool.false_or,
      gap_name hm hr]
    split
    · cases hname : name r with
      | none => simp only [hname, Option.bind_eq_bind, Option.bind_some, Option.bind_none, Option.any_none]
      | some p =>
        obtain ⟨found, rest⟩ := p
        simp only [hname, Option.bind_eq_bind, Option.bind_some]
        cases hs : spacedMark '(' rest with
        | none => rfl
        | some inner => exact hcolumns found rest hname inner hs
    · rfl

/-- A name in front can only be the word that names a constraint. -/
theorem constraintName_name (hn : ∀ c ∈ n, isNameChar c = true) (hr : Stops isBlank r) :
    constraintName (n ++ ' ' :: r) =
      if spells "CONSTRAINT".toList n then (run (!isBlank ·) r).bind (gap ·.2) else none := by
  have hc : ∀ l ∈ "CONSTRAINT".toList, sameLetter l ' ' = false := by decide
  unfold constraintName spells
  rw [keyword_name _ n r hc]
  cases hkey : keyword "CONSTRAINT".toList n with
  | none => rfl
  | some rest =>
    have hrest := keyword_subset hkey hn
    simp only [Option.map_some, Option.bind_eq_bind, Option.bind_some, gap_name hrest hr]
    cases rest with
    | nil => rfl
    | cons c rest => rfl

end NameBefore

namespace Piece

variable {s : List Char}

theorem ofText_eq_primaryKey {k : String} (h : ofText s = .primaryKey k) :
    primaryKeyClause? s = some k := by
  unfold ofText at h
  split at h
  · next hk => cases h; exact hk
  · split at h
    · cases h
    · split at h
      · cases h
      · split at h <;> cases h

theorem ofText_eq_foreignKey {k : String} {target : Target} (h : ofText s = .foreignKey k target) :
    foreignKeyClause? s = some (k, target) := by
  unfold ofText at h
  split at h
  · cases h
  · split at h
    · next hk => cases h; exact hk
    · split at h
      · cases h
      · split at h <;> cases h

/-- A column is a definition that is no clause of the table. -/
theorem ofText_eq_column {d : Definition} {inlined : Option Target} :
    ofText s = .column d inlined ↔
      isTableClause s = false ∧ definition? s = some d ∧ inlined = inlineTarget? false s := by
  constructor
  · intro h
    unfold ofText at h
    split at h
    · cases h
    · split at h
      · cases h
      · split at h
        · cases h
        · next hc =>
          split at h
          · next d' hd => cases h; exact ⟨by simpa using hc, hd, rfl⟩
          · cases h
  · rintro ⟨hc, hd, rfl⟩
    have hp : primaryKeyClause? s = none := by
      rw [Option.eq_none_iff_forall_ne_some]
      intro k hk
      rw [isTableClause_of_primaryKeyClause? hk] at hc
      cases hc
    have hf : foreignKeyClause? s = none := by
      rw [Option.eq_none_iff_forall_ne_some]
      intro k hk
      rw [isTableClause_of_foreignKeyClause? hk] at hc
      cases hc
    simp only [ofText, hp, hf, hc, hd, Bool.false_eq_true, if_false]

end Piece

/-- The name in a primary key clause is a word. -/
theorem primaryKeyClause?_word {s : List Char} {k : String} (h : primaryKeyClause? s = some k) :
    Word k.toList := by
  obtain ⟨u, -, h⟩ := Option.bind_eq_some_iff.1 h
  obtain ⟨⟨found, rest⟩, hn, h⟩ := Option.bind_eq_some_iff.1 h
  dsimp only at h
  split at h
  · cases h
    rw [String.toList_ofList]
    exact parenthesisedName_word hn
  · cases h

theorem referencesClause?_word {s : List Char} {target : Target}
    (h : referencesClause? s = some target) : Word target.column.toList := by
  obtain ⟨k, -, h⟩ := Option.bind_eq_some_iff.1 h
  obtain ⟨g, -, h⟩ := Option.bind_eq_some_iff.1 h
  obtain ⟨⟨table, u⟩, -, h⟩ := Option.bind_eq_some_iff.1 h
  obtain ⟨⟨column, v⟩, hv, h⟩ := Option.bind_eq_some_iff.1 h
  cases h
  rw [String.toList_ofList]
  exact parenthesisedName_word hv

/-- The names of the two columns in a foreign key clause are words. -/
theorem foreignKeyClause?_word {s : List Char} {k : String} {target : Target}
    (h : foreignKeyClause? s = some (k, target)) : Word k.toList ∧ Word target.column.toList := by
  obtain ⟨u, -, h⟩ := Option.bind_eq_some_iff.1 h
  obtain ⟨⟨column, rest⟩, hn, h⟩ := Option.bind_eq_some_iff.1 h
  obtain ⟨r, hr, h⟩ := Option.bind_eq_some_iff.1 h
  cases h
  rw [String.toList_ofList]
  exact ⟨parenthesisedName_word hn, referencesClause?_word hr⟩

theorem inlineTarget?_suffix {s : List Char} {inWord : Bool} {target : Target}
    (h : inlineTarget? inWord s = some target) :
    ∃ u, u <:+ s ∧ referencesClause? u = some target := by
  induction s generalizing inWord with
  | nil => cases h
  | cons d s ih =>
    rw [inlineTarget?] at h
    cases hw : (if inWord then none else referencesClause? (d :: s)) with
    | none =>
      rw [hw, Option.orElse_none] at h
      obtain ⟨u, hu, ht⟩ := ih h
      exact ⟨u, hu.trans (List.suffix_cons d s), ht⟩
    | some found =>
      rw [hw, Option.orElse_some] at h
      cases h
      split at hw
      · cases hw
      · exact ⟨d :: s, List.suffix_refl _, hw⟩

end SchemaDesign.Ddl
