import Mathlib.Data.List.TakeWhile
import SchemaDesign.Ddl.Piece
import SchemaDesign.Ddl.Statement
import SchemaDesign.Proofs.Text.Char

/-! What the scanning steps do with text that is laid out: words with one space between them, names in
parentheses, and the head of a statement. -/
namespace SchemaDesign.Ddl
open Text

/-- No character of a class comes next. -/
def Stops (p : Char → Bool) (s : List Char) : Prop := ∀ c ∈ s.head?, p c = false

@[simp] theorem stops_nil (p : Char → Bool) : Stops p [] := by simp [Stops]

@[simp] theorem stops_cons {p : Char → Bool} {c : Char} {s : List Char} :
    Stops p (c :: s) ↔ p c = false := by simp [Stops]

theorem Stops.append {p : Char → Bool} {s t : List Char} (hs : s ≠ []) (h : Stops p s) :
    Stops p (s ++ t) := by
  cases s with
  | nil => exact absurd rfl hs
  | cons c s => simpa using h

theorem takeWhile_append_stop {p : Char → Bool} {found rest : List Char}
    (hf : ∀ c ∈ found, p c = true) (hr : Stops p rest) :
    (found ++ rest).takeWhile p = found ∧ (found ++ rest).dropWhile p = rest := by
  rw [List.takeWhile_append_of_pos hf, List.dropWhile_append_of_pos hf]
  cases rest with
  | nil => simp
  | cons c rest =>
    rw [stops_cons] at hr
    simp [hr]

theorem run_append_stop {p : Char → Bool} {found rest : List Char} (hne : found ≠ [])
    (hf : ∀ c ∈ found, p c = true) (hr : Stops p rest) : run p (found ++ rest) = some (found, rest) := by
  obtain ⟨ht, hd⟩ := takeWhile_append_stop hf hr
  unfold run
  rw [ht, hd]
  cases found with
  | nil => exact absurd rfl hne
  | cons c found => rfl

theorem dropWhile_of_stops {p : Char → Bool} {s : List Char} (h : Stops p s) : s.dropWhile p = s := by
  cases s with
  | nil => rfl
  | cons c s =>
    rw [stops_cons] at h
    simp [h]

theorem skipBlanks_of_stops {s : List Char} (h : Stops isBlank s) : skipBlanks s = s :=
  dropWhile_of_stops h

@[simp] theorem isBlank_space : isBlank ' ' = true := by decide

theorem skipBlanks_space {s : List Char} (h : Stops isBlank s) : skipBlanks (' ' :: s) = s := by
  have : skipBlanks (' ' :: s) = skipBlanks s := by simp [skipBlanks]
  rw [this, skipBlanks_of_stops h]

theorem gap_space {s : List Char} (h : Stops isBlank s) : gap (' ' :: s) = some s := by
  simp [gap, skipBlanks_of_stops h]

theorem gap_of_stops {s : List Char} (h : Stops isBlank s) : gap s = none := by
  cases s with
  | nil => rfl
  | cons c s =>
    rw [stops_cons] at h
    simp [gap, h]

theorem sameLetter_self (c : Char) : sameLetter c c = true := by simp [sameLetter]

/-- All forms of a letter are letters. -/
theorem isLetter_of_sameLetter {l c : Char} (hl : l.toLower.isAlpha = true)
    (h : sameLetter l c = true) : isLetter c = true := by
  simp only [sameLetter, Bool.or_eq_true, Bool.and_eq_true, beq_iff_eq] at h
  simp only [isLetter, Bool.or_eq_true, beq_iff_eq]
  rcases h with ((h | h) | h) | h
  · have halpha : c.isAlpha = (c.isUpper || c.isLower) := rfl
    by_cases hupper : c.isUpper = true
    · simp [halpha, hupper]
    · have hbounds : c.isUpper = decide (c.val ≥ 'A'.val ∧ c.val ≤ 'Z'.val) := rfl
      have hsame : c.toLower = c := by
        apply dif_neg
        rwa [hbounds, decide_eq_true_iff] at hupper
      rw [← hsame, ← h, hl]
      simp
  · rcases h.2 with h | h <;> simp [h]
  · simp [h.2]
  · simp [h.2]

theorem keyword_self (w s : List Char) : keyword w (w ++ s) = some s := by
  induction w with
  | nil => rfl
  | cons c w ih => simpa [keyword, sameLetter_self] using ih

theorem keyword_of_stops {l : Char} {w s : List Char} (h : Stops (sameLetter l) s) :
    keyword (l :: w) s = none := by
  cases s with
  | nil => rfl
  | cons c s =>
    rw [stops_cons] at h
    simp [keyword, h]

/-- A word is not found across a character that none of its letters is. -/
theorem keyword_append_stop {w t : List Char} (h : ∀ l ∈ w, Stops (sameLetter l) t) (s : List Char) :
    keyword w (s ++ t) = (keyword w s).map (· ++ t) := by
  induction w generalizing s with
  | nil => rfl
  | cons l w ih =>
    cases s with
    | nil =>
      have hl := h l List.mem_cons_self
      cases t with
      | nil => rfl
      | cons c t =>
        rw [stops_cons] at hl
        simp [keyword, hl]
    | cons c s =>
      have ih := ih (fun m hm => h m (List.mem_cons_of_mem _ hm)) s
      by_cases hl : sameLetter l c = true
      · simpa [keyword, hl] using ih
      · simp [keyword, hl]

theorem phrase_two_self {w v s : List Char} (h : Stops isBlank (v ++ s)) :
    phrase [w, v] (w ++ ' ' :: (v ++ s)) = some s := by
  simp [phrase, keyword_self, gap_space h]

theorem skipQuote_of_stops {s : List Char} (h : Stops isQuote s) : skipQuote s = s := by
  cases s with
  | nil => rfl
  | cons c s =>
    rw [stops_cons] at h
    simp [skipQuote, h]

/-- A nonempty run of word characters. -/
def Word (s : List Char) : Prop := s ≠ [] ∧ ∀ c ∈ s, isWord c = true

instance (s : List Char) : Decidable (Word s) := inferInstanceAs (Decidable (_ ∧ _))

theorem isQuote_of_isWord {c : Char} (h : isWord c = true) : isQuote c = false := by
  cases hq : isQuote c with
  | false => rfl
  | true =>
    have hq : c = '\x60' ∨ c = '\x22' := by simpa [isQuote] using hq
    rcases hq with rfl | rfl <;> exact absurd h (by decide +kernel)

theorem Word.stops {s : List Char} (h : Word s) {p : Char → Bool}
    (hp : ∀ c, isWord c = true → p c = false) : Stops p s := by
  intro c hc
  exact hp c (h.2 c (List.mem_of_mem_head? hc))

theorem name_append_stop {n rest : List Char} (hn : Word n) (hw : Stops isWord rest)
    (hq : Stops isQuote rest) : name (n ++ rest) = some (n, rest) := by
  have hs : skipQuote (n ++ rest) = n ++ rest :=
    skipQuote_of_stops (Stops.append hn.1 (hn.stops fun _ => isQuote_of_isWord))
  simp [name, hs, run_append_stop hn.1 hn.2 hw, skipQuote_of_stops hq]

theorem parenthesisedName_self {n rest : List Char} (hn : Word n) :
    parenthesisedName ('(' :: (n ++ ')' :: rest)) = some (n, rest) := by
  have hb : Stops isBlank (n ++ ')' :: rest) :=
    Stops.append hn.1 (hn.stops fun _ => isBlank_of_isWord)
  have hopen : spacedMark '(' ('(' :: (n ++ ')' :: rest)) = some (n ++ ')' :: rest) := by
    rw [spacedMark, skipBlanks_of_stops (by rw [stops_cons]; decide)]
    rfl
  have hclose : spacedMark ')' (')' :: rest) = some rest := by
    rw [spacedMark, skipBlanks_of_stops (by rw [stops_cons]; decide)]
    rfl
  have hname : name (n ++ ')' :: rest) = some (n, ')' :: rest) :=
    name_append_stop hn (by rw [stops_cons]; decide +kernel) (by rw [stops_cons]; decide)
  simp [parenthesisedName, hopen, skipBlanks_of_stops hb, hname, hclose]

theorem parenthesisedName_space {n rest : List Char} (hn : Word n) :
    parenthesisedName (' ' :: '(' :: (n ++ ')' :: rest)) = some (n, rest) := by
  have hb : Stops isBlank ('(' :: (n ++ ')' :: rest)) := stops_cons.2 (by decide)
  rw [← parenthesisedName_self hn]
  simp only [parenthesisedName, spacedMark, skipBlanks_space hb, skipBlanks_of_stops hb]

theorem referencesClause?_self {t c rest : List Char} (ht : Word t) (hc : Word c) :
    referencesClause? ("REFERENCES ".toList ++ (t ++ '(' :: (c ++ ')' :: rest))) =
      some ⟨String.ofList t, String.ofList c⟩ := by
  have hk : keyword "REFERENCES".toList ("REFERENCES ".toList ++ (t ++ '(' :: (c ++ ')' :: rest))) =
      some (' ' :: (t ++ '(' :: (c ++ ')' :: rest))) :=
    keyword_self "REFERENCES".toList (' ' :: (t ++ '(' :: (c ++ ')' :: rest)))
  have hg := gap_space (Stops.append (t := '(' :: (c ++ ')' :: rest)) ht.1
    (ht.stops fun _ => isBlank_of_isWord))
  have hn : name (t ++ '(' :: (c ++ ')' :: rest)) = some (t, '(' :: (c ++ ')' :: rest)) :=
    name_append_stop ht (by rw [stops_cons]; decide +kernel) (by rw [stops_cons]; decide)
  simp only [referencesClause?, hk, hg, hn, parenthesisedName_self hc, Option.bind_eq_bind,
    Option.bind_some, Option.pure_def]

end SchemaDesign.Ddl
