import SchemaDesign.Proofs.Ddl.Legible

/-! The spelling of a column definition: the parts that a definition is read from, which make up its text
and from which it is read again. -/
namespace SchemaDesign.Ddl
open Text

/-- A name that may have a quote on either side, white space, a type of letters, and the tail, which no
letter begins. -/
structure Spelling where
  opening : Option Char
  name : List Char
  closing : Option Char
  space : List Char
  type : List Char
  tail : List Char
  opening_quote : ∀ q ∈ opening, isQuote q = true
  name_ne_nil : name ≠ []
  name_chars : ∀ c ∈ name, isNameChar c = true
  closing_quote : ∀ q ∈ closing, isQuote q = true
  space_ne_nil : space ≠ []
  space_blank : ∀ c ∈ space, isBlank c = true
  type_ne_nil : type ≠ []
  type_letters : ∀ c ∈ type, isLetter c = true
  tail_stops : Stops isLetter tail

namespace Spelling

/-- The type with all that follows it. -/
def typed (w : Spelling) : List Char := w.type ++ w.tail

/-- What stands behind the name. -/
def behind (w : Spelling) : List Char := w.closing.toList ++ (w.space ++ w.typed)

def text (w : Spelling) : List Char := w.opening.toList ++ (w.name ++ w.behind)

/-- The column that is written, with the length that the tail may begin with. -/
def definition (w : Spelling) : Definition where
  name := w.name
  type := w.type
  length := (qualifier w.tail).1
  modifiers := (qualifier w.tail).2

end Spelling

theorem isNameChar_of_isQuote {c : Char} (h : isQuote c = true) : isNameChar c = false := by
  simp [isNameChar, h]

theorem isNameChar_of_isBlank {c : Char} (h : isBlank c = true) : isNameChar c = false := by
  simp [isNameChar, h]

theorem isQuote_of_isBlank {c : Char} (h : isBlank c = true) : isQuote c = false := by
  cases hq : isQuote c with
  | false => rfl
  | true =>
    have hq : c = '\x60' ∨ c = '\x22' := by simpa [isQuote] using hq
    rcases hq with rfl | rfl <;> exact absurd h (by decide)

theorem isWord_of_isQuote {c : Char} (h : isQuote c = true) : isWord c = false := by
  cases hw : isWord c with
  | false => rfl
  | true => simp [isQuote_of_isWord hw] at h

theorem isLetter_of_not_isWord {c : Char} (h : isWord c = false) : isLetter c = false := by
  cases hl : isLetter c with
  | false => rfl
  | true => simp [isWord_of_isLetter hl] at h

/-- No letter of a word comes next where no letter at all does. -/
theorem stops_sameLetter {w t : List Char} (hw : ∀ l ∈ w, l.toLower.isAlpha = true)
    (ht : Stops isLetter t) : ∀ l ∈ w, Stops (sameLetter l) t := by
  intro l hl c hc
  cases hsame : sameLetter l c with
  | false => rfl
  | true => simpa [ht c hc] using isLetter_of_sameLetter (hw l hl) hsame

theorem isBlank_of_isQuote {c : Char} (h : isQuote c = true) : isBlank c = false := by
  cases hb : isBlank c with
  | false => rfl
  | true => simp [isQuote_of_isBlank hb] at h

theorem stops_of_forall {p q : Char → Bool} {s : List Char} (hs : ∀ c ∈ s, p c = true)
    (hpq : ∀ c, p c = true → q c = false) : Stops q s :=
  fun c hc => hpq c (hs c (List.mem_of_mem_head? hc))

theorem skipQuote_append {q : Option Char} (hq : ∀ c ∈ q, isQuote c = true) {s : List Char}
    (hs : Stops isQuote s) : skipQuote (q.toList ++ s) = s := by
  cases q with
  | none => exact skipQuote_of_stops hs
  | some c => simp [skipQuote, hq c rfl]

theorem gap_append_stop {b s : List Char} (hne : b ≠ []) (hb : ∀ c ∈ b, isBlank c = true)
    (hs : Stops isBlank s) : gap (b ++ s) = some s := by
  cases b with
  | nil => exact absurd rfl hne
  | cons c b =>
    obtain ⟨hc, hb⟩ := List.forall_mem_cons.1 hb
    have hskip : skipBlanks (b ++ s) = s := (takeWhile_append_stop hb hs).2
    show (if isBlank c = true then some (skipBlanks (b ++ s)) else none) = some s
    rw [if_pos hc, hskip]

theorem gap_eq_some {s t : List Char} (h : gap s = some t) :
    ∃ b, b ≠ [] ∧ (∀ c ∈ b, isBlank c = true) ∧ b ++ t = s := by
  cases s with
  | nil => cases h
  | cons c s =>
    simp only [gap] at h
    split at h
    · next hc =>
      cases h
      refine ⟨c :: s.takeWhile isBlank, List.cons_ne_nil _ _, List.forall_mem_cons.2 ⟨hc, ?_⟩, ?_⟩
      · exact fun d hd => List.mem_takeWhile_imp hd
      · show c :: (s.takeWhile isBlank ++ s.dropWhile isBlank) = c :: s
        rw [List.takeWhile_append_dropWhile]
    · cases h

theorem skipQuote_eq_append (s : List Char) :
    ∃ q : Option Char, (∀ c ∈ q, isQuote c = true) ∧ q.toList ++ skipQuote s = s := by
  cases s with
  | nil => exact ⟨none, by simp, rfl⟩
  | cons c s =>
    by_cases hc : isQuote c = true
    · exact ⟨some c, by simpa using hc, by simp [skipQuote, hc]⟩
    · exact ⟨none, by simp, by simp [skipQuote, hc]⟩

namespace Spelling

theorem stops_typed (w : Spelling) {p : Char → Bool} (hp : ∀ c, isLetter c = true → p c = false) :
    Stops p w.typed :=
  Stops.append w.type_ne_nil (stops_of_forall w.type_letters hp)

theorem typed_stops_isBlank (w : Spelling) : Stops isBlank w.typed :=
  w.stops_typed fun _ hc => isBlank_of_isWord (isWord_of_isLetter hc)

/-- No character that is of a class begins what stands behind the name. -/
theorem stops_behind (w : Spelling) {p : Char → Bool} (hq : ∀ c, isQuote c = true → p c = false)
    (hb : ∀ c, isBlank c = true → p c = false) : Stops p w.behind := by
  have hspace : Stops p (w.space ++ w.typed) := Stops.append w.space_ne_nil (stops_of_forall w.space_blank hb)
  unfold behind
  cases hc : w.closing with
  | none => exact hspace
  | some c => exact stops_cons.2 (hq c (w.closing_quote c hc))

theorem definition?_text (w : Spelling) : definition? w.text = some w.definition := by
  have hopening : skipQuote w.text = w.name ++ w.behind :=
    skipQuote_append w.opening_quote (Stops.append w.name_ne_nil
      (stops_of_forall w.name_chars fun _ hc => (isNameChar_spec hc).2.1))
  have hname : run isNameChar (w.name ++ w.behind) = some (w.name, w.behind) :=
    run_append_stop w.name_ne_nil w.name_chars
      (w.stops_behind (fun _ => isNameChar_of_isQuote) fun _ => isNameChar_of_isBlank)
  have hclosing : skipQuote w.behind = w.space ++ w.typed :=
    skipQuote_append w.closing_quote (Stops.append w.space_ne_nil
      (stops_of_forall w.space_blank fun _ => isQuote_of_isBlank))
  have hgap : gap (w.space ++ w.typed) = some w.typed :=
    gap_append_stop w.space_ne_nil w.space_blank w.typed_stops_isBlank
  have htype : run isLetter w.typed = some (w.type, w.tail) :=
    run_append_stop w.type_ne_nil w.type_letters w.tail_stops
  simp only [definition?, hopening, hname, hclosing, hgap, htype, Option.bind_eq_bind, Option.bind_some,
    Option.pure_def, definition]

/-- Every definition has been read from its spelling. -/
theorem exists_of_definition? {s : List Char} {d : Definition} (h : definition? s = some d) :
    ∃ w : Spelling, w.text = s ∧ w.definition = d := by
  obtain ⟨r, t, u, hname, hgap, htype, hqualifier⟩ := definition?_eq_some h
  obtain ⟨opening, hopening, hs⟩ := skipQuote_eq_append s
  obtain ⟨closing, hclosing, hr⟩ := skipQuote_eq_append r
  obtain ⟨space, hspace, hblank, ht⟩ := gap_eq_some hgap
  have htail : Stops isLetter u := by
    obtain ⟨-, -, rfl⟩ := run_eq_some.1 htype
    intro c hc
    simpa [Option.mem_def.1 hc] using List.head?_dropWhile_not isLetter t
  refine ⟨⟨opening, d.name, closing, space, d.type, u, hopening, run_ne_nil hname, run_all hname,
    hclosing, hspace, hblank, run_ne_nil htype, run_all htype, htail⟩, ?_, ?_⟩
  · show opening.toList ++ (d.name ++ (closing.toList ++ (space ++ (d.type ++ u)))) = s
    rw [run_append htype, ht, hr, run_append hname, hs]
  · show (⟨d.name, d.type, (qualifier u).1, (qualifier u).2⟩ : Definition) = d
    rw [← hqualifier]

end Spelling

/-- The definition of a column that is kept: it is no clause of the table, and its name is valid. -/
theorem Piece.definition?_ofText {s : List Char} {d : Definition} :
    (Piece.ofText s).definition? = some d ↔ isTableClause s = false ∧ Ddl.definition? s = some d ∧
      Validation.isValidName (String.ofList d.name) = true := by
  constructor
  · intro h
    cases hp : Piece.ofText s with
    | column e inlined =>
      rw [hp, Piece.definition?] at h
      split at h
      · next hvalid =>
        cases h
        obtain ⟨hclause, hd, -⟩ := Piece.ofText_eq_column.1 hp
        exact ⟨hclause, hd, hvalid⟩
      · cases h
    | _ => rw [hp] at h; cases h
  · rintro ⟨hclause, hd, hvalid⟩
    rw [Piece.ofText_eq_column.2 ⟨hclause, hd, rfl⟩, Piece.definition?, if_pos hvalid]

end SchemaDesign.Ddl
