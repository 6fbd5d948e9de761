import SchemaDesign.Proofs.Ddl.Clause
import SchemaDesign.Proofs.Lists
import SchemaDesign.Proofs.Model.PrimaryKey
import SchemaDesign.Proofs.Model.Reference
import SchemaDesign.Proofs.Sql.Lines
import SchemaDesign.Proofs.Text.LowerCase
import SchemaDesign.Proofs.Text.Numeral

/-! Schemas whose SQL can be taken apart again: the text determines the statements, and each
statement its lines. -/
namespace SchemaDesign

/-- A column whose name, type and length can be told apart once they are written. -/
structure Column.Printable (c : Column String) : Prop where
  name_ne_nil : c.name.toList ≠ []
  name_chars : ∀ ch ∈ c.name.toList, Ddl.isNameChar ch = true
  type_head : c.type.toList.head?.any Ddl.isLetter = true
  type_chars : ∀ ch ∈ c.type.toList, Text.isTypeChar ch = true
  length : ∀ n, c.length? = some n → ∃ k : Nat, n = k ∧ (Text.decimal k).length ≤ Text.maxDigits

namespace Export.Sql
open Ddl Text

theorem isTypeChar_spec {c : Char} (h : isTypeChar c = true) :
    isBlank c = false ∧ isFlat c = true ∧ c ≠ 'K' := by
  have hall : ∀ n ∈ typeCodes, isBlank (Char.ofNat n) = false ∧ isFlat (Char.ofNat n) = true ∧
      Char.ofNat n ≠ 'K' := by decide +kernel
  obtain ⟨n, hn, rfl⟩ := ofNat_mem_codes (by simpa [isTypeChar] using h)
  exact hall n hn

theorem isFlat_of_isWord {c : Char} (h : isWord c = true) : isFlat c = true := by
  cases hf : isFlat c with
  | true => rfl
  | false =>
    have hf : c = '(' ∨ c = ')' ∨ c = ',' := by
      simp only [isFlat, Bool.and_eq_false_iff, bne_eq_false_iff_eq] at hf
      rwa [or_assoc] at hf
    rcases hf with rfl | rfl | rfl <;> exact absurd h (by decide +kernel)

end Export.Sql

namespace Column.Printable
open Text

variable {c : Column String}

theorem baseType_eq (h : c.Printable) : c.baseType = c.type := by
  have hblank : ∀ ch ∈ c.type.toList, isBlank ch = false := fun ch hch =>
    (Export.Sql.isTypeChar_spec (h.type_chars ch hch)).1
  have htrim : trim c.type.toList = c.type.toList := trim_of_forall hblank
  unfold baseType
  split
  · next he =>
    rw [Label.isEmpty_string, beq_iff_eq] at he
    exact he.symm
  · rw [Label.shown_string, htrim, lower_of_isTypeChar h.type_chars, String.ofList_toList]

theorem name_stops (h : c.Printable) {p : Char → Bool}
    (hp : ∀ ch, Ddl.isNameChar ch = true → p ch = false) : Ddl.Stops p c.name.toList :=
  fun ch hch => hp ch (h.name_chars ch (List.mem_of_mem_head? hch))

theorem type_ne_nil (h : c.Printable) : c.type.toList ≠ [] := by
  intro he
  have hhead := h.type_head
  rw [he] at hhead
  cases hhead

theorem type_stops (h : c.Printable) {p : Char → Bool}
    (hp : ∀ ch, Ddl.isLetter ch = true → p ch = false) : Ddl.Stops p c.type.toList := by
  intro ch hch
  have hhead := h.type_head
  rw [Option.mem_def.1 hch] at hhead
  exact hp ch hhead

theorem lengthChars_eq (h : c.Printable) :
    Export.Sql.lengthChars c = [] ∧ c.length? = none ∨
      ∃ k : Nat, c.length? = some (k : Int) ∧ (decimal k).length ≤ maxDigits ∧
        Export.Sql.lengthChars c = '(' :: (decimal k ++ [')']) := by
  unfold Export.Sql.lengthChars
  cases hl : c.length? with
  | none => exact .inl ⟨rfl, rfl⟩
  | some n =>
    obtain ⟨k, rfl, hk⟩ := h.length n hl
    exact .inr ⟨k, rfl, hk, by rw [← String.toList_ofList (l := decimal k)]; rfl⟩

end Column.Printable

namespace Export.Sql
open Ddl Text

variable {c : Column String}

theorem flagChars_eq (notNull unique : Bool) :
    flagChars notNull unique = [] ∨ ∃ s, flagChars notNull unique = ' ' :: s := by
  cases notNull <;> cases unique
  · exact .inl rfl
  · exact .inr ⟨_, rfl⟩
  · exact .inr ⟨_, rfl⟩
  · exact .inr ⟨_, rfl⟩

theorem flagChars_flat (notNull unique : Bool) : ∀ c ∈ flagChars notNull unique, isFlat c = true := by
  cases notNull <;> cases unique <;> decide

theorem stops_flagChars_reverse (notNull unique : Bool) :
    Stops isBlank (flagChars notNull unique).reverse := by
  unfold Stops
  cases notNull <;> cases unique <;> decide +kernel

/-- What follows the type begins with a parenthesis or with a space. -/
theorem stops_columnTail (h : c.Printable) {p : Char → Bool} (ho : p '(' = false)
    (hs : p ' ' = false) : Stops p (columnTail c) := by
  unfold columnTail
  obtain ⟨hl, -⟩ | ⟨k, -, -, hl⟩ := h.lengthChars_eq
  · rw [hl, List.nil_append]
    obtain hf | ⟨s, hf⟩ := flagChars_eq (!c.nullable) (c.unique && !c.primaryKey)
    · rw [hf]
      exact stops_nil p
    · rw [hf]
      exact stops_cons.2 hs
  · rw [hl]
    exact stops_cons.2 ho

theorem isDecimal_isFlat {c : Char} (h : isDecimal c = true) : isFlat c = true :=
  isFlat_of_isWord (isDecimal_spec h).2.1

theorem balanced_columnTail (h : c.Printable) : Balanced (columnTail c) := by
  unfold columnTail
  have hflags := balanced_flat (flagChars_flat (!c.nullable) (c.unique && !c.primaryKey))
  obtain ⟨hl, -⟩ | ⟨k, -, -, hl⟩ := h.lengthChars_eq
  · rwa [hl]
  · rw [hl]
    exact (balanced_parenthesised fun d hd => isDecimal_isFlat (decimal_isDecimal k d hd)).append
      hflags

theorem stops_columnTail_reverse (h : c.Printable) : Stops isBlank (columnTail c).reverse := by
  unfold columnTail
  rw [List.reverse_append]
  refine (stops_flagChars_reverse _ _).append_of_both ?_
  obtain ⟨hl, -⟩ | ⟨k, -, -, hl⟩ := h.lengthChars_eq
  · rw [hl]
    exact stops_nil _
  · rw [hl, ← List.cons_append, List.reverse_append]
    exact stops_cons.2 (by decide)

theorem line_columnLine (h : c.Printable) : Line (columnLine c) := by
  have htype : ∀ ch ∈ c.type.toList, isBlank ch = false ∧ isFlat ch = true := fun ch hch =>
    ⟨(isTypeChar_spec (h.type_chars ch hch)).1, (isTypeChar_spec (h.type_chars ch hch)).2.1⟩
  have hname : ∀ ch ∈ c.name.toList, isBlank ch = false ∧ isFlat ch = true := fun ch hch =>
    ⟨(isNameChar_spec (h.name_chars ch hch)).1, (isNameChar_spec (h.name_chars ch hch)).2.2⟩
  unfold columnLine
  rw [h.baseType_eq]
  constructor
  · have htight : Tight (c.name.toList ++ ' ' :: c.type.toList) := by
      refine ⟨by simp, ?_, ?_⟩
      · exact Stops.append h.name_ne_nil (h.name_stops fun ch hch => (isNameChar_spec hch).1)
      · rw [List.reverse_append, List.reverse_cons]
        refine Stops.append (by simp) (Stops.append (by simpa using h.type_ne_nil) ?_)
        exact fun ch hch => (htype ch (List.mem_reverse.1 (List.mem_of_mem_head? hch))).1
    have := htight.append (stops_columnTail_reverse h)
    rwa [List.append_assoc, List.cons_append] at this
  · have hflat : Balanced (c.name.toList ++ ' ' :: c.type.toList) := by
      refine balanced_flat fun ch hch => ?_
      rcases List.mem_append.1 hch with hch | hch
      · exact (hname ch hch).2
      · rcases List.mem_cons.1 hch with rfl | hch
        · decide
        · exact (htype ch hch).2
    have := hflat.append (balanced_columnTail h)
    rwa [List.append_assoc, List.cons_append] at this

theorem line_keyLine {key : List Char} (h : ∀ ch ∈ key, isFlat ch = true) : Line (keyLine key) := by
  unfold keyLine
  constructor
  · have htight : Tight (keyLead ++ [' ', '(']) :=
      ⟨by decide, by unfold Stops; decide +kernel, by unfold Stops; decide +kernel⟩
    have := htight.append (t := key ++ [')']) (by
      rw [List.reverse_append]
      exact stops_cons.2 (by decide))
    simpa only [List.append_assoc, List.cons_append, List.nil_append] using this
  · have hwords : Balanced (keyLead ++ [' ']) := balanced_flat (by decide)
    have := hwords.append (balanced_parenthesised h)
    simpa only [List.append_assoc, List.cons_append, List.nil_append] using this

theorem line_linkLine {column table target : List Char} (hc : ∀ ch ∈ column, isFlat ch = true)
    (ht : ∀ ch ∈ table, isFlat ch = true) (hr : ∀ ch ∈ target, isFlat ch = true) :
    Line (linkLine column table target) := by
  unfold linkLine
  constructor
  · have htight : Tight (linkLead ++ [' ', '(']) :=
      ⟨by decide, by unfold Stops; decide +kernel, by unfold Stops; decide +kernel⟩
    have := htight.append
      (t := column ++ ')' :: ' ' :: (targetLead ++ (table ++ '(' :: (target ++ [')'])))) (by
        simp only [List.reverse_append, List.reverse_cons, List.reverse_nil, List.nil_append,
          List.cons_append, List.append_assoc]
        exact stops_cons.2 (by decide))
    simpa only [List.append_assoc, List.cons_append, List.nil_append] using this
  · have hwords : Balanced (linkLead ++ [' ']) := balanced_flat (by decide)
    have hword : ∀ ch ∈ ' ' :: targetLead, isFlat ch = true := by decide
    have hmiddle : Balanced (' ' :: targetLead ++ table) := balanced_flat fun ch hch => by
      rcases List.mem_append.1 hch with hch | hch
      · exact hword ch hch
      · exact ht ch hch
    have := (hwords.append (balanced_parenthesised hc)).append
      (hmiddle.append (balanced_parenthesised hr))
    simpa only [List.append_assoc, List.cons_append, List.nil_append] using this

/-- Distinct ids, names that are words, sound columns, and references that lead to a column of the
first table of a name. -/
structure Printable (ts : List (Table String)) : Prop where
  names : ∀ t ∈ ts, Word t.name.toList
  keyed : ∀ t ∈ ts, Column.Keyed t.columns
  columns : ∀ t ∈ ts, ∀ c ∈ t.columns, c.Printable
  targets : ∀ t ∈ ts, ∀ c ∈ t.columns, ∀ d, c.target? ts = some d →
    ts.find? (·.name == d.name) = some d ∧ Word c.references.columnName.toList

variable {ts ts' : List (Table String)} {t : Table String}

theorem Printable.flat_name (h : Printable ts) (ht : t ∈ ts) {c : Column String}
    (hc : c ∈ t.columns) : ∀ ch ∈ c.name.toList, isFlat ch = true := fun ch hch =>
  (isNameChar_spec ((h.columns t ht c hc).name_chars ch hch)).2.2

/-- The primary key is the name of a column. -/
theorem mem_of_primaryKey {k : String} (h : t.primaryKey = some k) :
    ∃ c ∈ t.columns, c.primaryKey = true ∧ c.name = k := by
  obtain ⟨c, hc, hk⟩ := Option.bind_eq_some_iff.1 h
  exact ⟨c, List.mem_of_find?_eq_some hc, by simpa using List.find?_some hc, by simpa using hk⟩

theorem Printable.primaryKey_ne_empty (h : Printable ts) (ht : t ∈ ts) {k : String}
    (hk : t.primaryKey = some k) : k ≠ "" := by
  obtain ⟨c, hc, -, rfl⟩ := mem_of_primaryKey hk
  exact Validation.ne_empty_of_isValidName ((h.keyed t ht).names_valid c hc)

theorem Printable.keyLines_eq (h : Printable ts) (ht : t ∈ ts) :
    keyLines t = t.primaryKey.toList.map fun k => keyLine k.toList := by
  unfold keyLines
  cases hk : t.primaryKey with
  | none => rfl
  | some k => simp [h.primaryKey_ne_empty ht hk]

def linkLines (ts : List (Table String)) (t : Table String) : List (List Char) :=
  t.columns.filterMap (linkLine? ts)

/-- The lines of the columns come before those of the keys and the references. -/
theorem lines_eq_append (ts : List (Table String)) (t : Table String) :
    lines ts t = t.columns.map columnLine ++ (keyLines t ++ linkLines ts t) :=
  List.append_assoc _ _ _

theorem mem_linkLines {l : List Char} : l ∈ linkLines ts t ↔ ∃ c ∈ t.columns, ∃ d,
    c.target? ts = some d ∧
      l = linkLine c.name.toList d.name.toList c.references.columnName.toList := by
  simp only [linkLines, linkLine?, List.mem_filterMap, Option.map_eq_some_iff, eq_comm (b := l)]

theorem Printable.line (h : Printable ts) (ht : t ∈ ts) : ∀ l ∈ lines ts t, Line l := by
  intro l hl
  rw [lines_eq_append, List.mem_append, List.mem_append, h.keyLines_eq ht] at hl
  rcases hl with hl | hl | hl
  · obtain ⟨c, hc, rfl⟩ := List.mem_map.1 hl
    exact line_columnLine (h.columns t ht c hc)
  · obtain ⟨k, hk, rfl⟩ := List.mem_map.1 hl
    obtain ⟨c, hc, -, rfl⟩ := mem_of_primaryKey (Option.mem_toList.1 hk)
    exact line_keyLine (h.flat_name ht hc)
  · obtain ⟨c, hc, d, hd, rfl⟩ := mem_linkLines.1 hl
    have hflat : ∀ {s : List Char}, Word s → ∀ ch ∈ s, isFlat ch = true := fun hs ch hch =>
      isFlat_of_isWord (hs.2 ch hch)
    exact line_linkLine (h.flat_name ht hc) (hflat (h.names d (Column.target?_eq_some hd).2.1))
      (hflat (h.targets t ht c hc d hd).2)

theorem Printable.pieces_bodyChars (h : Printable ts) (ht : t ∈ ts) :
    pieces (bodyChars ts t) = lines ts t := pieces_layLines (h.line ht)

theorem Printable.wellFormed (h : Printable ts) : WellFormed (printed ts) := by
  intro st hst
  obtain ⟨t, ht, rfl⟩ := List.mem_map.1 hst
  exact ⟨h.names t ht, closes_layLines (h.line ht)⟩

/-- The statements of a printed schema are found again, and nothing is skipped between them. -/
theorem Printable.statements_generate (h : Printable ts) :
    statements (generate ts).toList = printed ts ∧ skippedStatements (generate ts).toList = [] := by
  rw [toList_generate]
  exact statements_flatMap h.wellFormed

theorem Printable.map_printed (h : Printable ts) :
    (printed ts).map (fun st => (String.ofList st.1, pieces st.2)) =
      ts.map fun t => (t.name, lines ts t) := by
  rw [printed, List.map_map]
  refine List.map_congr_left fun t ht => ?_
  simp only [Function.comp_apply, String.ofList_toList, h.pieces_bodyChars ht]

/-- Two schemas with the same text have the same names and the same lines. -/
theorem Printable.lines_eq (h : Printable ts) (h' : Printable ts') (he : generate ts' = generate ts) :
    List.Forall₂ (fun t t' => t'.name = t.name ∧ lines ts' t' = lines ts t) ts ts' := by
  have hprinted : printed ts = printed ts' := by
    rw [← h.statements_generate.1, ← he, h'.statements_generate.1]
  have hmap : ts.map (fun t => (t.name, lines ts t)) = ts'.map fun t => (t.name, lines ts' t) := by
    rw [← h.map_printed, ← h'.map_printed, hprinted]
  exact (forall₂_eq_iff_map.2 hmap).imp fun t t' ht =>
    ⟨(congrArg Prod.fst ht).symm, (congrArg Prod.snd ht).symm⟩

/-- Whether the second word of a line begins with a capital, as in a clause of the table: types are in
lower case. -/
def isClause (l : List Char) : Bool := ((l.dropWhile (· != ' ')).drop 1).head? == some 'K'

theorem isClause_columnLine (h : c.Printable) : isClause (columnLine c) = false := by
  have hname : ∀ ch ∈ c.name.toList, (ch != ' ') = true := fun ch hch => by
    have hb := (isNameChar_spec (h.name_chars ch hch)).1
    rw [bne_iff_ne]
    rintro rfl
    exact absurd hb (by decide)
  unfold isClause columnLine
  rw [(takeWhile_append_stop hname (by simp)).2, h.baseType_eq, List.drop_one, List.tail_cons]
  cases ht : c.type.toList with
  | nil => exact absurd ht h.type_ne_nil
  | cons d s =>
    have hd := (isTypeChar_spec (h.type_chars d (by rw [ht]; exact List.mem_cons_self))).2.2
    simpa using hd

theorem isClause_keyLine (key : List Char) : isClause (keyLine key) = true := rfl

theorem isClause_linkLine (column table target : List Char) :
    isClause (linkLine column table target) = true := rfl

theorem Printable.clause_cases (h : Printable ts) (ht : t ∈ ts) {l : List Char}
    (hl : l ∈ keyLines t ++ linkLines ts t) :
    (∃ key, l = keyLine key) ∨ ∃ column table target, l = linkLine column table target := by
  rcases List.mem_append.1 hl with hl | hl
  · rw [h.keyLines_eq ht] at hl
    obtain ⟨k, -, rfl⟩ := List.mem_map.1 hl
    exact .inl ⟨_, rfl⟩
  · obtain ⟨c, -, d, -, rfl⟩ := mem_linkLines.1 hl
    exact .inr ⟨_, _, _, rfl⟩

theorem Printable.filter_lines (h : Printable ts) (ht : t ∈ ts) :
    (lines ts t).filter (fun l => !isClause l) = t.columns.map columnLine ∧
      (lines ts t).filter isClause = keyLines t ++ linkLines ts t := by
  have hcolumns : ∀ l ∈ t.columns.map columnLine, isClause l = false := by
    intro l hl
    obtain ⟨c, hc, rfl⟩ := List.mem_map.1 hl
    exact isClause_columnLine (h.columns t ht c hc)
  have hclauses : ∀ l ∈ keyLines t ++ linkLines ts t, isClause l = true := by
    intro l hl
    obtain ⟨key, rfl⟩ | ⟨column, table, target, rfl⟩ := h.clause_cases ht hl
    · exact isClause_keyLine key
    · exact isClause_linkLine column table target
  rw [lines_eq_append]
  exact filter_append_split hcolumns hclauses

/-- The columns of equal lines are written alike. -/
theorem Printable.columnLines_eq (h : Printable ts) (ht : t ∈ ts) (h' : Printable ts') {t' : Table String}
    (ht' : t' ∈ ts') (he : lines ts' t' = lines ts t) :
    t'.columns.map columnLine = t.columns.map columnLine := by
  rw [← (h.filter_lines ht).1, ← (h'.filter_lines ht').1, he]

end Export.Sql

end SchemaDesign
