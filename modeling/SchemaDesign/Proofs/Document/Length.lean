import SchemaDesign.Document.Decode
import SchemaDesign.Proofs.Json.Binary64
import SchemaDesign.Proofs.Result

/-! What becomes of the length that a document gives a column. Any value is taken, as an integer or for
none, but for a number that is infinite as a double: with that the column is not read at all. -/
namespace SchemaDesign.Document

variable {d j : Json} {c : Column Json} {l : Option Int} {e : Fault}

/-- The length that a value gives. A number loses its fraction, a text is read as an integer, and what is
neither gives none. -/
inductive GivesLength : Json → Option Int → Prop
  | absent : GivesLength .null none
  | flag (b : Bool) : GivesLength (.bool b) (some b.toInt)
  | whole (n : Int) : GivesLength (.int n) (some n)
  | cut {x : Binary64} {q : ℚ} (value : x.value? = some q) :
      GivesLength (.real x) (some (Binary64.towardsZero q))
  | undefined : GivesLength (.real .undefined) none
  | numeral {s : String} {n : Int} (read : Text.readInt s.toList = .ok n) : GivesLength (.str s) (some n)
  | text {s : String} {fault : Text.NumeralFault} (read : Text.readInt s.toList = .error fault) :
      GivesLength (.str s) none
  | list (items : List Json) : GivesLength (.arr items) none
  | object (fields : List (String × Json)) : GivesLength (.obj fields) none

theorem GivesLength.readLength (h : GivesLength j l) : readLength j = .ok l := by
  cases h with
  | absent => rfl
  | flag b => cases b <;> rfl
  | whole n => rfl
  | @cut x q value =>
    cases x with
    | finite negative m e =>
      show Except.ok (Binary64.finite negative m e).truncate? = _
      rw [Binary64.truncate?_eq, value]
      rfl
    | infinite negative => cases value
    | undefined => cases value
  | undefined => rfl
  | numeral read =>
    unfold Document.readLength
    simp only [read]
  | text read =>
    unfold Document.readLength
    simp only [read]
  | list items => rfl
  | object fields => rfl

/-- Only an infinite number gives nothing. -/
theorem gives_or_infinite (j : Json) :
    (∃ l, GivesLength j l) ∨ ∃ negative, j = .real (.infinite negative) := by
  cases j with
  | null => exact .inl ⟨_, .absent⟩
  | bool b => exact .inl ⟨_, .flag b⟩
  | int n => exact .inl ⟨_, .whole n⟩
  | real x =>
    cases x with
    | finite negative m e => exact .inl ⟨_, .cut rfl⟩
    | infinite negative => exact .inr ⟨negative, rfl⟩
    | undefined => exact .inl ⟨_, .undefined⟩
  | str s =>
    cases h : Text.readInt s.toList with
    | ok n => exact .inl ⟨_, .numeral h⟩
    | error fault => exact .inl ⟨_, .text h⟩
  | arr items => exact .inl ⟨_, .list items⟩
  | obj fields => exact .inl ⟨_, .object fields⟩

theorem readLength_eq_ok : readLength j = .ok l ↔ GivesLength j l := by
  refine ⟨fun h => ?_, GivesLength.readLength⟩
  rcases gives_or_infinite j with ⟨l', hl⟩ | ⟨negative, rfl⟩
  · rw [hl.readLength] at h
    cases h
    exact hl
  · cases h

theorem readLength_eq_error :
    readLength j = .error e ↔ e = .infiniteLength ∧ ∃ negative, j = .real (.infinite negative) := by
  constructor
  · intro h
    rcases gives_or_infinite j with ⟨l, hl⟩ | ⟨negative, rfl⟩
    · rw [hl.readLength] at h
      cases h
    · cases h
      exact ⟨rfl, negative, rfl⟩
  · rintro ⟨rfl, negative, rfl⟩
    rfl

/-- The references of a document are absent, count as missing or are an object. -/
def GivesReference (d : Json) : Prop :=
  (d.field "references" .null).isTrue = true → (d.field "references" .null).kind = .obj

instance (d : Json) : Decidable (GivesReference d) :=
  inferInstanceAs (Decidable (_ = true → _ = Json.Kind.obj))

theorem GivesReference.read (h : GivesReference d) :
    ∃ r, readReference (d.field "references" .null) = .ok r := by
  unfold readReference
  split
  · exact ⟨_, rfl⟩
  · next hj => exact ⟨_, if_pos (h (by simpa using hj))⟩

/-- Where the reference can be read, a column is read as far as its length is. -/
theorem readColumn_eq (hd : d.kind = .obj) (hr : GivesReference d) :
    (readColumn d).map (·.typeLength) = readLength (d.field "typeLength" .null) := by
  obtain ⟨r, hreference⟩ := hr.read
  unfold readColumn
  rw [if_neg (not_not.2 hd), hreference]
  cases readLength (d.field "typeLength" .null) <;> rfl

theorem readColumn_eq_error (hd : d.kind = .obj) (hr : GivesReference d) :
    readColumn d = .error e ↔ e = .infiniteLength ∧
      ∃ negative, d.field "typeLength" .null = .real (.infinite negative) := by
  rw [← readLength_eq_error, ← readColumn_eq hd hr]
  cases readColumn d <;> simp [Except.map]

/-- A document whose references can be read is read as a column of the length that it gives, and is refused
exactly where that is an infinite number, which a decimal is from `overflow` on. -/
theorem readColumn_length (hd : d.kind = .obj) (hr : GivesReference d) :
    (∀ l, (∃ c, readColumn d = .ok c ∧ c.typeLength = l) ↔ GivesLength (d.field "typeLength" .null) l) ∧
    (∀ e, readColumn d = .error e ↔ e = .infiniteLength ∧
      ∃ negative, d.field "typeLength" .null = .real (.infinite negative)) ∧
    ∀ negative digits power,
      d.field "typeLength" .null = .real (Binary64.ofDecimal negative digits power) →
      ((∃ c, readColumn d = .ok c) ↔ (digits : ℚ) * 10 ^ power < Binary64.overflow) := by
  refine ⟨fun l => ?_, fun e => readColumn_eq_error hd hr, fun negative digits power hdecimal => ?_⟩
  · rw [← readLength_eq_ok, ← readColumn_eq hd hr]
    exact map_eq_ok.symm
  · rw [← not_le]
    constructor
    · rintro ⟨c, hc⟩ hover
      have hinfinite : Binary64.ofDecimal negative digits power = .infinite negative :=
        Binary64.ofDecimal_eq_infinite.2 ⟨rfl, hover⟩
      rw [hinfinite] at hdecimal
      have herror := (readColumn_eq_error hd hr).2 ⟨rfl, negative, hdecimal⟩
      rw [hc] at herror
      cases herror
    · intro hunder
      cases hread : readColumn d with
      | ok c => exact ⟨c, rfl⟩
      | error e =>
        obtain ⟨-, s, hs⟩ := (readColumn_eq_error hd hr).1 hread
        have hinfinite := Json.real.inj (hdecimal.symm.trans hs)
        exact absurd (Binary64.ofDecimal_eq_infinite.1 hinfinite).2 hunder

/-- A document that gives a decimal as the length. -/
def decimalDocument (digits : Nat) (power : Int) : Json :=
  .obj [("name", .str "a"), ("type", .str "varchar"),
    ("typeLength", .real (Binary64.ofDecimal false digits power))]

theorem readColumn_fraction :
    (decimalDocument 275 (-1)).kind = .obj ∧ GivesReference (decimalDocument 275 (-1)) ∧
    ∃ c, readColumn (decimalDocument 275 (-1)) = .ok c ∧ c.typeLength = some 27 := by
  have hkind : (decimalDocument 275 (-1)).kind = .obj := rfl
  have hreference : GivesReference (decimalDocument 275 (-1)) := by decide
  have hdouble : Binary64.ofDecimal false 275 (-1) = .finite false 7740561859543040 (-48) := by
    decide +kernel
  have hvalue : (Binary64.ofDecimal false 275 (-1)).value? = some (55 / 2) := by
    rw [hdouble]
    norm_num [Binary64.value?]
  have hcut : Binary64.towardsZero (55 / 2) = 27 := by norm_num [Binary64.towardsZero]
  refine ⟨hkind, hreference, ?_⟩
  apply ((readColumn_length hkind hreference).1 (some 27)).2
  rw [← hcut]
  exact .cut hvalue

/-- A length of `1e999` keeps the column from being read. -/
theorem not_readColumn_huge :
    (decimalDocument 1 999).kind = .obj ∧ GivesReference (decimalDocument 1 999) ∧
    ¬ ∃ c, readColumn (decimalDocument 1 999) = .ok c := by
  refine ⟨rfl, by decide, ?_⟩
  rintro ⟨c, hc⟩
  have hinfinite : Binary64.ofDecimal false 1 999 = .infinite false := by decide +kernel
  unfold decimalDocument at hc
  rw [hinfinite] at hc
  cases hc

end SchemaDesign.Document
