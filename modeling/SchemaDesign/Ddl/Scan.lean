import SchemaDesign.Text.Blank
import SchemaDesign.Text.Word

/-! Scanning steps for DDL text. A step that succeeds returns the text behind what it read. Each form
that they make up can be read in one way at most, so a step never has to be tried again. -/
namespace SchemaDesign.Ddl
open Text

/-- Equality apart from case. Besides its two forms a letter has those that fold to it: the dotted and
the dotless i, the long s, and the Kelvin sign. -/
def sameLetter (letter c : Char) : Bool :=
  letter.toLower == c.toLower
    || (letter.toLower == 'i' && (c.toNat == 304 || c.toNat == 305))
    || (letter.toLower == 's' && c.toNat == 383)
    || (letter.toLower == 'k' && c.toNat == 8490)

def isLetter (c : Char) : Bool :=
  c.isAlpha || c.toNat == 304 || c.toNat == 305 || c.toNat == 383 || c.toNat == 8490

def isQuote (c : Char) : Bool := c == '\x60' || c == '\x22'

/-- A given word, case apart. -/
def keyword : List Char → List Char → Option (List Char)
  | [], s => some s
  | w :: ws, c :: s => if sameLetter w c then keyword ws s else none
  | _ :: _, [] => none

theorem keyword_suffix {w s r : List Char} (h : keyword w s = some r) : r <:+ s := by
  fun_induction keyword w s with
  | case1 => cases h; exact List.suffix_refl _
  | case2 w ws c s _ ih => exact (ih h).trans (List.suffix_cons c s)
  | case3 => simp at h
  | case4 => simp at h

def skipBlanks (s : List Char) : List Char := s.dropWhile isBlank

theorem skipBlanks_suffix (s : List Char) : skipBlanks s <:+ s := List.dropWhile_suffix _

/-- At least one blank. -/
def gap : List Char → Option (List Char)
  | c :: s => if isBlank c then some (skipBlanks s) else none
  | [] => none

theorem gap_suffix {s r : List Char} (h : gap s = some r) : r <:+ s ∧ r.length < s.length := by
  cases s with
  | nil => simp [gap] at h
  | cons c s =>
    simp only [gap] at h
    split at h
    · cases h
      have := (skipBlanks_suffix s)
      exact ⟨this.trans (List.suffix_cons c s), Nat.lt_succ_of_le this.length_le⟩
    · simp at h

def mark (m : Char) : List Char → Option (List Char)
  | c :: s => if c == m then some s else none
  | [] => none

theorem mark_suffix {m : Char} {s r : List Char} (h : mark m s = some r) : r <:+ s := by
  cases s with
  | nil => simp [mark] at h
  | cons c s =>
    simp only [mark] at h
    split at h
    · cases h; exact List.suffix_cons c _
    · simp at h

/-- A mark with blanks before it. -/
def spacedMark (m : Char) (s : List Char) : Option (List Char) := mark m (skipBlanks s)

theorem spacedMark_suffix {m : Char} {s r : List Char} (h : spacedMark m s = some r) : r <:+ s :=
  (mark_suffix h).trans (skipBlanks_suffix s)

def skipQuote : List Char → List Char
  | c :: s => if isQuote c then s else c :: s
  | [] => []

theorem skipQuote_suffix (s : List Char) : skipQuote s <:+ s := by
  cases s with
  | nil => exact List.suffix_refl _
  | cons c s =>
    simp only [skipQuote]
    split
    · exact List.suffix_cons c s
    · exact List.suffix_refl _

/-- A nonempty run of characters of a class, and the text behind it. -/
def run (p : Char → Bool) (s : List Char) : Option (List Char × List Char) :=
  match s.takeWhile p with
  | [] => none
  | found => some (found, s.dropWhile p)

theorem run_suffix {p : Char → Bool} {s found r : List Char} (h : run p s = some (found, r)) :
    r <:+ s := by
  unfold run at h
  split at h
  · simp at h
  · cases h; exact List.dropWhile_suffix _

/-- A name of word characters, with or without a quote on either side. -/
def name (s : List Char) : Option (List Char × List Char) :=
  (run isWord (skipQuote s)).map fun (found, rest) => (found, skipQuote rest)

theorem name_suffix {s found r : List Char} (h : name s = some (found, r)) : r <:+ s := by
  obtain ⟨⟨f, t⟩, hr, he⟩ := Option.map_eq_some_iff.1 h
  cases he
  exact ((skipQuote_suffix t).trans (run_suffix hr)).trans (skipQuote_suffix s)

/-- Whether no word goes on here. -/
def wordEnds : List Char → Bool
  | c :: _ => !isWord c
  | [] => true

/-- Words with blanks between them. -/
def phrase : List (List Char) → List Char → Option (List Char)
  | [], s => some s
  | [w], s => keyword w s
  | w :: v :: ws, s => do phrase (v :: ws) (← gap (← keyword w s))

theorem phrase_suffix {ws : List (List Char)} {s r : List Char} (h : phrase ws s = some r) :
    r <:+ s := by
  fun_induction phrase ws s with
  | case1 => cases h; exact List.suffix_refl _
  | case2 => exact keyword_suffix h
  | case3 s w v ws ih =>
    obtain ⟨t, ht, h⟩ := Option.bind_eq_some_iff.1 h
    obtain ⟨u, hu, h⟩ := Option.bind_eq_some_iff.1 h
    exact ((ih u h).trans (gap_suffix hu).1).trans (keyword_suffix ht)

/-- Whether the words stand somewhere in the text, bounded as words at both ends. `inWord` tells
whether a word character precedes the text. -/
def hasPhrase (words : List (List Char)) (inWord : Bool) : List Char → Bool
  | [] => false
  | c :: s =>
      (!inWord && (phrase words (c :: s)).any wordEnds) || hasPhrase words (isWord c) s

/-- A name in parentheses, blanks allowed around it. -/
def parenthesisedName (s : List Char) : Option (List Char × List Char) := do
  let (found, rest) ← name (skipBlanks (← spacedMark '(' s))
  return (found, ← spacedMark ')' rest)

end SchemaDesign.Ddl
