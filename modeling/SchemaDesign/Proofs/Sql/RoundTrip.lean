import SchemaDesign.Model.ColumnType
import SchemaDesign.Proofs.Sql.Loss
import SchemaDesign.Proofs.Sql.Opening

/-! The round trip of clean schemas through SQL. It fails exactly for columns that are named by the
words of a unique key written as one. -/
namespace SchemaDesign
open Ddl Text

/-- An identifier without digits, a canonical type, and a length that can be read. -/
structure Column.Clean (c : Column String) : Prop where
  name : Word c.name.toList
  digits : ∀ ch ∈ c.name.toList, isDigit ch = false
  type : c.type ∈ ColumnType.all.map ColumnType.keyword
  typeLength : ∀ n ∈ c.typeLength, 0 < n ∧ (decimal n.toNat).length ≤ maxDigits

instance (c : Column String) : Decidable c.Clean :=
  decidable_of_iff (_ ∧ _ ∧ _ ∧ _)
    ⟨fun ⟨hn, hd, ht, hl⟩ => ⟨hn, hd, ht, hl⟩, fun h => ⟨h.name, h.digits, h.type, h.typeLength⟩⟩

/-- Whether a column is named by the words of a unique key without a space between them. -/
def Column.isJoinedKey (c : Column String) : Bool :=
  spells ("UNIQUE".toList ++ "INDEX".toList) c.name.toList ||
    spells ("UNIQUE".toList ++ "KEY".toList) c.name.toList

theorem isNameChar_of_isWord {ch : Char} (h : isWord ch = true) : isNameChar ch = true := by
  have hflat := isFlat_spec (Export.Sql.isFlat_of_isWord h)
  simp [isNameChar, isBlank_of_isWord h, isQuote_of_isWord h, hflat]

theorem leads_of_word {w s : List Char} (hs : Word s) : leads w s = spells w s := by
  unfold leads spells
  cases hk : keyword w s with
  | none => rfl
  | some rest =>
    cases rest with
    | nil => rfl
    | cons d rest =>
      have hd := keyword_subset hk hs.2 d List.mem_cons_self
      simp [wordEnds, hd]

namespace ColumnType

theorem keyword_chars (k : ColumnType) :
    (∀ ch ∈ k.keyword.toList, isLetter ch = true ∧ isTypeChar ch = true) ∧
      k.keyword.toList.head?.any isLetter = true := by
  cases k <;> decide +kernel

/-- No type is a word of an index. -/
theorem not_spells_keyword (k : ColumnType) :
    spells "KEY".toList k.keyword.toList = false ∧ spells "INDEX".toList k.keyword.toList = false := by
  cases k <;> decide +kernel

end ColumnType

namespace Column.Clean

variable {c : Column String}

theorem type_eq (h : c.Clean) : ∃ k : ColumnType, c.type = k.keyword := by
  obtain ⟨k, -, hk⟩ := List.mem_map.1 h.type
  exact ⟨k, hk.symm⟩

theorem isValidName (h : c.Clean) : Validation.isValidName c.name = true := by
  refine Validation.matchesName_of_forall h.name.1 fun ch hch => ?_
  have hsemicolon : ch ≠ ';' := by
    rintro rfl
    exact absurd (h.name.2 _ hch) (by decide +kernel)
  simp [Validation.isNameChar, hsemicolon, h.digits ch hch, isBlank_of_isWord (h.name.2 ch hch)]

theorem length?_eq (h : c.Clean) : c.length? = c.typeLength := by
  unfold length?
  cases hn : c.typeLength with
  | none => rfl
  | some n =>
    have hpos := (h.typeLength n hn).1
    have hzero : n ≠ 0 := by omega
    simp [Option.filter, hzero]

theorem printable (h : c.Clean) : c.Printable where
  name_ne_nil := h.name.1
  name_chars := fun ch hch => isNameChar_of_isWord (h.name.2 ch hch)
  type_head := by
    obtain ⟨k, hk⟩ := h.type_eq
    rw [hk]
    exact k.keyword_chars.2
  type_chars := by
    obtain ⟨k, hk⟩ := h.type_eq
    rw [hk]
    exact fun ch hch => (k.keyword_chars.1 ch hch).2
  length := by
    intro n hn
    obtain ⟨hpos, hlen⟩ := h.typeLength n (h.length?_eq ▸ hn)
    exact ⟨n.toNat, (Int.toNat_of_nonneg (Int.le_of_lt hpos)).symm, hlen⟩

theorem type_letters (h : c.Clean) : ∀ ch ∈ c.type.toList, isLetter ch = true := by
  obtain ⟨k, hk⟩ := h.type_eq
  rw [hk]
  exact fun ch hch => (k.keyword_chars.1 ch hch).1

theorem looksLikeClause_eq (h : c.Clean) : c.looksLikeClause = c.isJoinedKey := by
  obtain ⟨k, hk⟩ := h.type_eq
  obtain ⟨hkey, hindex⟩ := k.not_spells_keyword
  unfold looksLikeClause isJoinedKey
  simp only [leads_of_word h.name, hk, hkey, hindex, Bool.and_false, Bool.or_false, Bool.false_or]

end Column.Clean

namespace Export.Sql

/-- Names that are words and tell tables apart, names that tell the columns of a table apart, clean
columns, and at most one primary key, which is unique and not null. -/
structure Clean (ts : List (Table String)) : Prop where
  names_nodup : (ts.map (·.name)).Nodup
  names : ∀ t ∈ ts, Word t.name.toList
  columnNames_nodup : ∀ t ∈ ts, (t.columns.map (·.name)).Nodup
  columns : ∀ t ∈ ts, ∀ c ∈ t.columns, c.Clean
  one_key : ∀ t ∈ ts, t.columns.countP (·.primaryKey) ≤ 1
  key_strict : ∀ t ∈ ts, ∀ c ∈ t.columns, c.primaryKey = true → c.nullable = false ∧ c.unique = true

instance (ts : List (Table String)) : Decidable (Clean ts) :=
  decidable_of_iff (_ ∧ _ ∧ _ ∧ _ ∧ _ ∧ _)
    ⟨fun ⟨hn, hw, hcn, hc, ho, hs⟩ => ⟨hn, hw, hcn, hc, ho, hs⟩, fun h =>
      ⟨h.names_nodup, h.names, h.columnNames_nodup, h.columns, h.one_key, h.key_strict⟩⟩

/-- What is read has the tables and columns of a schema, each reference set exactly if the old one
resolves and led to where it led, and the same SQL. -/
structure RoundTrip (ts : List (Table String)) (r : Report) : Prop where
  skipped : r.skipped = []
  restored : Restored ts r.tables
  lengths : List.Forall₂ (fun t t' => t'.columns.map (·.typeLength) = t.columns.map (·.typeLength))
    ts r.tables
  references : List.Forall₂ (fun t t' =>
    t'.columns.map (·.references.isSet) = t.columns.map fun c => (c.target? ts).isSome) ts r.tables
  text : generate r.tables = generate ts

variable {ts us : List (Table String)} {t : Table String}

theorem Clean.printable (h : Clean ts) : Printable ts where
  names := h.names
  keyed := fun t ht =>
    { names_nodup := h.columnNames_nodup t ht
      names_valid := fun c hc => (h.columns t ht c hc).isValidName
      types := fun c hc he => (h.columns t ht c hc).printable.type_ne_nil (by rw [he]; rfl)
      one_key := h.one_key t ht
      key_strict := h.key_strict t ht }
  columns := fun t ht c hc => (h.columns t ht c hc).printable
  targets := by
    intro t ht c hc d hd
    obtain ⟨-, hdm, -, hcol⟩ := Column.target?_eq_some hd
    refine ⟨?_, ?_⟩
    · obtain ⟨e, he⟩ := Option.isSome_iff_exists.1
        (List.find?_isSome (p := (·.name == d.name)).2 ⟨d, hdm, by simp⟩)
      have hname : e.name = d.name := by simpa using List.find?_some he
      rw [he, List.inj_on_of_nodup_map h.names_nodup (List.mem_of_find?_eq_some he) hdm hname]
    · obtain ⟨e, he, hname⟩ := List.mem_map.1 hcol
      rw [← hname]
      exact (h.columns d hdm e he).name

theorem Clean.worded (h : Clean ts) (ht : t ∈ ts) : Worded ts t where
  key := by
    intro k hk
    obtain ⟨c, hc, -, rfl⟩ := mem_of_primaryKey hk
    exact (h.columns t ht c hc).name
  links := fun c hc _ => (h.columns t ht c hc).name

theorem Clean.faithful_iff (h : Clean ts) (ht : t ∈ ts) :
    Faithful ts t ↔ ∀ c ∈ t.columns, c.isJoinedKey = false := by
  constructor
  · intro hf c hc
    rw [← (h.columns t ht c hc).looksLikeClause_eq]
    exact hf.columns c hc
  · intro hj
    refine ⟨h.worded ht, fun c hc => ?_, fun c hc => (h.columns t ht c hc).type_letters⟩
    rw [(h.columns t ht c hc).looksLikeClause_eq]
    exact hj c hc

theorem Clean.calm (h : Clean ts) : Calm (columnNames ts) := by
  refine calm_of_inert fun w hw => ?_
  obtain ⟨t, ht, hw⟩ := List.mem_flatMap.1 hw
  obtain ⟨c, hc, rfl⟩ := List.mem_map.1 hw
  exact Word.inert (h.columns t ht c hc).name

theorem Clean.source_eq (h : Clean ts) : source (generate ts) = (generate ts).toList :=
  (uncommented_generate h.printable (fun _ ht => h.worded ht) h.calm).withoutComments_eq

theorem Clean.length_eq (h : Clean ts) (hr : Restored ts us) :
    List.Forall₂ (fun t t' => t'.columns.map (·.typeLength) = t.columns.map (·.typeLength)) ts us := by
  refine (forall₂_with_mem hr).imp fun t t' ⟨ht, hrt⟩ => ?_
  refine (forall₂_eq_iff_map.1 ((forall₂_with_mem hrt.columns).imp fun c c' ⟨hc, hrc⟩ => ?_)).symm
  rw [hrc.typeLength, (h.columns t ht c hc).length?_eq]

theorem Clean.isSet_eq (h : Clean ts) (hr : Restored ts us) (hset : ∀ u ∈ us, u.id ≠ "") :
    List.Forall₂ (fun t t' =>
      t'.columns.map (·.references.isSet) = t.columns.map fun c => (c.target? ts).isSome) ts us := by
  refine (forall₂_with_mem hr).imp fun t t' ⟨ht, hrt⟩ => ?_
  refine (forall₂_eq_iff_map.1 ((forall₂_with_mem hrt.columns).imp fun c c' ⟨hc, hrc⟩ => ?_)).symm
  cases hd : c.target? ts with
  | none =>
    rw [hrc.unresolved hd]
    rfl
  | some d =>
    obtain ⟨-, i, d', -, hi, href⟩ := hrc.resolved d hd
    have hid := hset d' (List.mem_of_getElem? hi)
    have hcol : c.references.columnName ≠ "" := by
      intro he
      have hword := (h.printable.targets t ht c hc d hd).2
      rw [he] at hword
      exact hword.1 rfl
    simp [href, Reference.isSet, hid, hcol]

theorem Clean.not_isJoinedKey (h : Clean ts) {ids : TableId.Supply} {r : Report}
    (hr : read ids (generate ts) = .ok r) (hround : RoundTrip ts r) :
    ∀ t ∈ ts, ∀ c ∈ t.columns, c.isJoinedKey = false := fun t ht =>
  (h.faithful_iff ht).1 (faithful_of_generate_eq h.printable h.source_eq hr hround.text t ht)

/-- A clean schema comes back from its SQL exactly if no column is named like a unique key. -/
theorem Clean.roundTrip_iff (h : Clean ts) (ids : TableId.Supply) :
    (∃ r, read ids (generate ts) = .ok r ∧ RoundTrip ts r) ↔
      ∀ t ∈ ts, ∀ c ∈ t.columns, c.isJoinedKey = false := by
  constructor
  · rintro ⟨r, hr, hround⟩
    exact h.not_isJoinedKey hr hround
  · intro hj
    obtain ⟨r, hr, hskipped, hrestored⟩ :=
      read_generate h.printable (fun t ht => (h.faithful_iff ht).2 (hj t ht)) h.source_eq ids
    have hset : ∀ u ∈ r.tables, u.id ≠ "" := fun u hu => read_id_ne_empty hr hu
    exact ⟨r, hr, hskipped, hrestored, h.length_eq hrestored, h.isSet_eq hrestored hset,
      hrestored.generate_eq h.printable (read_ids_nodup hr) hset⟩

/-- Two tables that refer to each other, with columns named by words of SQL. -/
def linkedTables : List (Table String) :=
  [⟨"a", "users", "",
      [⟨"primary", "varchar", some 64, false, true, true, false, Reference.unset⟩,
       ⟨"references", "int", none, true, false, false, true, ⟨"b", "key"⟩⟩]⟩,
   ⟨"b", "orders", "",
      [⟨"key", "int", none, false, true, true, true, ⟨"b", "key"⟩⟩,
       ⟨"unique", "char", some 1, false, true, false, true, ⟨"a", "primary"⟩⟩]⟩]

theorem roundTrip_linkedTables : Clean linkedTables ∧
    ∃ r, read .counter (generate linkedTables) = .ok r ∧ RoundTrip linkedTables r := by
  have hclean : Clean linkedTables := by decide +kernel
  exact ⟨hclean, (hclean.roundTrip_iff .counter).2 (by decide +kernel)⟩

/-- A table whose only column is lost. -/
def uniqueKeyTable : Table String :=
  ⟨"t", "t", "", [⟨"uniquekey", "int", none, true, false, false, false, Reference.unset⟩]⟩

theorem not_roundTrip_uniqueKeyTable : Clean [uniqueKeyTable] ∧
    ¬ ∃ r, read .counter (generate [uniqueKeyTable]) = .ok r ∧ RoundTrip [uniqueKeyTable] r := by
  have hclean : Clean [uniqueKeyTable] := by decide +kernel
  refine ⟨hclean, fun ⟨r, hr, hround⟩ => ?_⟩
  have hnot := hclean.not_isJoinedKey hr hround uniqueKeyTable List.mem_cons_self _ List.mem_cons_self
  exact absurd hnot (by decide +kernel)

end Export.Sql

end SchemaDesign
