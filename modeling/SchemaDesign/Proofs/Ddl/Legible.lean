import Mathlib.Data.List.Induction
import SchemaDesign.Proofs.Ddl.Report
import SchemaDesign.Proofs.Text.Numeral

/-! Which texts can be read: those in which no column is given a length of too many digits. Nothing else
can keep a text from being read. -/
namespace SchemaDesign.Ddl
open Text

/-- A length of more digits than are read as a number. -/
def Definition.Overlong (d : Definition) : Prop :=
  ∃ digits, d.length = some digits ∧ (∀ c ∈ digits, isDigit c = true) ∧ maxDigits < digits.length

/-- The definition in a piece that defines a column under a valid name. -/
def Piece.definition? : Piece → Option Definition
  | .column d _ => if Validation.isValidName (String.ofList d.name) then some d else none
  | _ => none

/-- The columns that pieces define, in order. -/
def definitions (pieces : List (List Char)) : List Definition :=
  pieces.filterMap fun piece => (Piece.ofText piece).definition?

/-- Among definitions, none that is the first of its name has too long a length. Of one that comes later
the length does not matter, since it is left out. -/
def Legible (ds : List Definition) : Prop :=
  ∀ before d after, ds = before ++ d :: after → d.name ∉ before.map (·.name) → ¬ d.Overlong

/-- A text whose statements all have legible bodies. -/
def Readable (text : String) : Prop :=
  ∀ st ∈ statements (source text), Legible (definitions (pieces st.2))

/-! One length -/

theorem Definition.typeLength_eq_error {d : Definition} {e : NumeralFault} :
    d.typeLength = .error e ↔
      ∃ digits, d.length = some digits ∧ (∀ c ∈ digits, isDigit c = true) ∧
        maxDigits < digits.length ∧ e = .tooLong digits.length := by
  unfold typeLength
  cases hd : d.length with
  | none => simp
  | some digits =>
    by_cases hnum : (!digits.isEmpty && digits.all isDigit) = true
    · obtain ⟨hne, hall⟩ : digits ≠ [] ∧ ∀ c ∈ digits, isDigit c = true := by
        simpa only [Bool.and_eq_true, Bool.not_eq_true', List.isEmpty_eq_false_iff,
          List.all_eq_true] using hnum
      obtain ⟨hlong, hshort⟩ := readNat_of_isDigit hne hall
      simp only [if_pos hnum, Option.some.injEq, exists_eq_left']
      rcases Nat.lt_or_ge maxDigits digits.length with hlen | hlen
      · simp only [hlong hlen, Except.map, bind, Except.bind, Except.error.injEq]
        exact ⟨fun h => ⟨hall, hlen, h.symm⟩, fun h => h.2.2.symm⟩
      · obtain ⟨n, hn⟩ := hshort hlen
        simp [hn, Except.map, Nat.not_lt.2 hlen, bind, Except.bind, pure, Except.pure]
    · simp only [if_neg hnum, Option.some.injEq, exists_eq_left', reduceCtorEq, false_iff]
      rintro ⟨hall, hlong, -⟩
      have hne : digits ≠ [] := List.ne_nil_of_length_pos (Nat.lt_of_le_of_lt (Nat.zero_le _) hlong)
      refine hnum ?_
      simp only [Bool.and_eq_true, Bool.not_eq_true', List.isEmpty_eq_false_iff, List.all_eq_true]
      exact ⟨hne, hall⟩

theorem Definition.overlong_iff {d : Definition} : d.Overlong ↔ ∃ e, d.typeLength = .error e := by
  constructor
  · rintro ⟨digits, hd, hall, hlong⟩
    exact ⟨_, typeLength_eq_error.2 ⟨digits, hd, hall, hlong, rfl⟩⟩
  · rintro ⟨e, he⟩
    obtain ⟨digits, hd, hall, hlong, -⟩ := typeLength_eq_error.1 he
    exact ⟨digits, hd, hall, hlong⟩

/-! One body -/

theorem definitions_append_singleton (ps : List (List Char)) (p : List Char) :
    definitions (ps ++ [p]) = definitions ps ++ (Piece.ofText p).definition?.toList := by
  unfold definitions
  rw [List.filterMap_append]
  cases h : (Piece.ofText p).definition? <;> simp [h]

theorem legible_append_singleton {ds : List Definition} {d : Definition} :
    Legible (ds ++ [d]) ↔ Legible ds ∧ (d.name ∉ ds.map (·.name) → ¬ d.Overlong) := by
  constructor
  · intro h
    refine ⟨fun before e after he => ?_, h ds d [] rfl⟩
    exact h before e (after ++ [d]) (by rw [he]; simp)
  · rintro ⟨hds, hd⟩ before e after he
    rcases List.eq_nil_or_concat after with rfl | ⟨after, f, rfl⟩
    · obtain ⟨rfl, hlast⟩ := List.append_inj' he rfl
      obtain rfl : d = e := List.singleton_inj.1 hlast
      exact hd
    · have he : ds ++ [d] = (before ++ e :: after) ++ [f] := by simpa using he
      exact hds before e after (List.append_inj' he rfl).1

namespace Body

variable {b : Body} {piece : List Char}

/-- What one piece does to the columns of a body. -/
inductive Adds (b : Body) (piece : List Char) : Except NumeralFault Body → Prop
  | nothing (b' : Body) (none : (Piece.ofText piece).definition? = none)
      (columns : b'.columns = b.columns) : Adds b piece (.ok b')
  | taken (d : Definition) (b' : Body) (some : (Piece.ofText piece).definition? = some d)
      (taken : String.ofList d.name ∈ b.columns.map (·.name)) (columns : b'.columns = b.columns) :
      Adds b piece (.ok b')
  | column (d : Definition) (len : Option Int) (b' : Body)
      (some : (Piece.ofText piece).definition? = some d)
      (free : String.ofList d.name ∉ b.columns.map (·.name)) (length : d.typeLength = .ok len)
      (columns : b'.columns = b.columns ++ [columnOf d len]) : Adds b piece (.ok b')
  | fault (d : Definition) (e : NumeralFault) (some : (Piece.ofText piece).definition? = some d)
      (free : String.ofList d.name ∉ b.columns.map (·.name)) (length : d.typeLength = .error e) :
      Adds b piece (.error e)

theorem adds_add (b : Body) (piece : List Char) : Adds b piece (b.add piece) := by
  unfold add
  split
  · next k hp => exact .nothing _ (by rw [hp]; rfl) rfl
  · next k target hp => exact .nothing _ (by rw [hp]; rfl) rfl
  · next hp => exact .nothing _ (by rw [hp]; rfl) rfl
  · next hp => exact .nothing _ (by rw [hp]; rfl) rfl
  · next d inlined hp =>
    simp only [addColumn]
    split
    · next hv =>
      have hv : Validation.isValidName (String.ofList d.name) = false := by simpa using hv
      exact .nothing _ (by simp [hp, Piece.definition?, hv]) rfl
    · next hv =>
      have hsome : (Piece.ofText piece).definition? = some d := by
        have hv : Validation.isValidName (String.ofList d.name) = true := by simpa using hv
        simp [hp, Piece.definition?, hv]
      split
      · next htaken => exact .taken d _ hsome (by simpa using htaken) rfl
      · next hfree =>
        have hfree : String.ofList d.name ∉ b.columns.map (·.name) := by simpa using hfree
        cases hlen : d.typeLength with
        | error e => exact .fault d e hsome hfree hlen
        | ok len => exact .column d len _ hsome hfree hlen rfl

/-- The columns of a body that is read are those that its pieces define, each name once. -/
theorem mem_names_ofPieces {ps : List (List Char)} (h : ofPieces ps = .ok b) (n : List Char) :
    String.ofList n ∈ b.columns.map (·.name) ↔ n ∈ (definitions ps).map (·.name) := by
  induction ps using List.reverseRecOn generalizing b with
  | nil =>
    cases h
    simp [empty, definitions]
  | append_singleton ps p ih =>
    rw [ofPieces_append_singleton] at h
    obtain ⟨a, ha, h⟩ := bind_eq_ok.1 h
    have hadds := adds_add a p
    rw [h] at hadds
    rw [definitions_append_singleton, List.map_append, List.mem_append, ← ih ha]
    cases hadds with
    | nothing _ hnone hcols => simp [hnone, hcols]
    | taken d _ hsome htaken hcols =>
      rw [hsome, hcols]
      refine ⟨.inl, fun hn => hn.elim id fun hn => ?_⟩
      obtain rfl : n = d.name := by simpa using hn
      exact htaken
    | column d len _ hsome _ _ hcols => simp [hsome, hcols, columnOf, String.ofList_inj]

theorem add_eq_ok_of_none (h : (Piece.ofText piece).definition? = none) :
    ∃ b', b.add piece = .ok b' := by
  have hadds := adds_add b piece
  generalize b.add piece = o at hadds
  cases hadds with
  | nothing b' _ _ => exact ⟨b', rfl⟩
  | taken _ b' _ _ _ => exact ⟨b', rfl⟩
  | column _ _ b' _ _ _ _ => exact ⟨b', rfl⟩
  | fault d e hsome _ _ =>
    rw [h] at hsome
    cases hsome

/-- A definition can be read unless it is the first of its name and its length is too long. -/
theorem add_eq_ok_iff {d : Definition} (h : (Piece.ofText piece).definition? = some d) :
    (∃ b', b.add piece = .ok b') ↔ (String.ofList d.name ∉ b.columns.map (·.name) → ¬ d.Overlong) := by
  have hadds := adds_add b piece
  generalize b.add piece = o at hadds
  cases hadds with
  | nothing b' hnone _ =>
    rw [h] at hnone
    cases hnone
  | taken e b' hsome htaken _ =>
    obtain rfl : d = e := Option.some.inj (h.symm.trans hsome)
    exact ⟨fun _ hfree => absurd htaken hfree, fun _ => ⟨b', rfl⟩⟩
  | column e len b' hsome _ hlen _ =>
    obtain rfl : d = e := Option.some.inj (h.symm.trans hsome)
    refine ⟨fun _ _ hlong => ?_, fun _ => ⟨b', rfl⟩⟩
    obtain ⟨_, hlong⟩ := Definition.overlong_iff.1 hlong
    rw [hlen] at hlong
    cases hlong
  | fault f e hsome hfree he =>
    obtain rfl : d = f := Option.some.inj (h.symm.trans hsome)
    have hlong := Definition.overlong_iff.2 ⟨e, he⟩
    exact ⟨fun ⟨_, h⟩ => (nomatch h), fun hshort => absurd hlong (hshort hfree)⟩

theorem add_eq_error {e : NumeralFault} (h : b.add piece = .error e) :
    ∃ d, (Piece.ofText piece).definition? = some d ∧ d.typeLength = .error e := by
  have hadds := adds_add b piece
  rw [h] at hadds
  cases hadds with
  | fault d _ hsome _ he => exact ⟨d, hsome, he⟩

/-- A body can be read exactly if its definitions are legible. -/
theorem ofPieces_eq_ok_iff {ps : List (List Char)} :
    (∃ b, ofPieces ps = .ok b) ↔ Legible (definitions ps) := by
  induction ps using List.reverseRecOn with
  | nil =>
    refine ⟨fun _ before d after he => ?_, fun _ => ⟨empty, rfl⟩⟩
    simp [definitions] at he
  | append_singleton ps p ih =>
    have hstep : (∃ b, ofPieces (ps ++ [p]) = .ok b) ↔
        ∃ a, ofPieces ps = .ok a ∧ ∃ b, a.add p = .ok b := by
      simp only [ofPieces_append_singleton, bind_eq_ok]
      exact exists_comm.trans (exists_congr fun a => exists_and_left)
    rw [hstep, definitions_append_singleton]
    cases hd : (Piece.ofText p).definition? with
    | none =>
      simp only [Option.toList_none, List.append_nil, ← ih, add_eq_ok_of_none hd, and_true]
    | some d =>
      rw [Option.toList_some, legible_append_singleton, ← ih]
      constructor
      · rintro ⟨a, ha, hadd⟩
        refine ⟨⟨a, ha⟩, fun hfree => (add_eq_ok_iff hd).1 hadd ?_⟩
        rwa [mem_names_ofPieces ha]
      · rintro ⟨⟨a, ha⟩, hshort⟩
        refine ⟨a, ha, (add_eq_ok_iff hd).2 fun hfree => hshort ?_⟩
        rwa [mem_names_ofPieces ha] at hfree

theorem ofPieces_eq_error {ps : List (List Char)} {e : NumeralFault} (h : ofPieces ps = .error e) :
    ∃ d ∈ definitions ps, d.typeLength = .error e := by
  induction ps using List.reverseRecOn with
  | nil => cases h
  | append_singleton ps p ih =>
    rw [ofPieces_append_singleton] at h
    rw [definitions_append_singleton]
    cases hb : ofPieces ps with
    | error f =>
      rw [hb] at h
      cases h
      obtain ⟨d, hd, he⟩ := ih hb
      exact ⟨d, List.mem_append_left _ hd, he⟩
    | ok b =>
      rw [hb] at h
      obtain ⟨d, hd, he⟩ := add_eq_error h
      exact ⟨d, List.mem_append_right _ (by simp [hd]), he⟩

end Body

/-! Whole texts -/

theorem readStatements_eq_ok_iff (ids : TableId.Supply) {sts : List (List Char × List Char)} :
    (∃ r, readStatements ids sts = .ok r) ↔ ∀ st ∈ sts, Legible (definitions (pieces st.2)) := by
  induction sts generalizing ids with
  | nil => simp [readStatements]
  | cons st sts ih =>
    rw [List.forall_mem_cons, ← Body.ofPieces_eq_ok_iff, ← ih (ids.drop 1)]
    constructor
    · rintro ⟨r, h⟩
      obtain ⟨p, hp, h⟩ := bind_eq_ok.1 h
      obtain ⟨q, hq, -⟩ := bind_eq_ok.1 h
      obtain ⟨b, hb, -⟩ := bind_eq_ok.1 (mapError_eq_ok.1 hp)
      exact ⟨⟨b, hb⟩, q, mapError_eq_ok.1 hq⟩
    · rintro ⟨⟨b, hb⟩, q, hq⟩
      exact ⟨_, bind_eq_ok.2 ⟨_, mapError_eq_ok.2 (bind_eq_ok.2 ⟨b, hb, rfl⟩),
        bind_eq_ok.2 ⟨q, mapError_eq_ok.2 hq, rfl⟩⟩⟩

/-- Only a length of too many digits keeps statements from being read. -/
theorem readStatements_eq_error {ids : TableId.Supply} {sts : List (List Char × List Char)} {e : Fault}
    (h : readStatements ids sts = .error e) : ∃ n, maxDigits < n ∧ e.cause = .tooLong n := by
  induction sts generalizing ids e with
  | nil => cases h
  | cons st sts ih =>
    rcases bind_eq_error.1 h with h | ⟨p, -, h⟩
    · obtain ⟨f, hf, rfl⟩ := mapError_eq_error.1 h
      rcases bind_eq_error.1 hf with hf | ⟨b, -, hf⟩
      · obtain ⟨d, -, hd⟩ := Body.ofPieces_eq_error hf
        obtain ⟨digits, -, -, hlong, rfl⟩ := Definition.typeLength_eq_error.1 hd
        exact ⟨digits.length, hlong, rfl⟩
      · cases hf
    · rcases bind_eq_error.1 h with h | ⟨q, -, h⟩
      · obtain ⟨f, hf, rfl⟩ := mapError_eq_error.1 h
        obtain ⟨n, hlong, hcause⟩ := ih hf
        exact ⟨n, hlong, hcause⟩
      · cases h

theorem read_eq_ok_iff (ids : TableId.Supply) {text : String} :
    (∃ r, read ids text = .ok r) ↔ Readable text := by
  unfold Readable
  rw [← readStatements_eq_ok_iff ids, read_eq]
  constructor
  · rintro ⟨r, h⟩
    obtain ⟨q, hq, -⟩ := bind_eq_ok.1 h
    exact ⟨q, hq⟩
  · rintro ⟨q, hq⟩
    simp [hq, bind, Except.bind, pure, Except.pure]

theorem read_eq_error {ids : TableId.Supply} {text : String} {e : Fault} (h : read ids text = .error e) :
    ∃ n, maxDigits < n ∧ e.cause = .tooLong n := by
  rw [read_eq] at h
  rcases bind_eq_error.1 h with h | ⟨q, -, h⟩
  · exact readStatements_eq_error h
  · cases h

end SchemaDesign.Ddl
