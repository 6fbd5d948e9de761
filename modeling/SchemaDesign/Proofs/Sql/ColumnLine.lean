import SchemaDesign.Proofs.Sql.Printable

/-! What the line of a column is read as: a clause of the table if the name and the type stand for the
words that lead one, and else the definition of the column. -/
namespace SchemaDesign

/-- Whether the line of a column begins as a key or index clause does. -/
def Column.looksLikeClause (c : Column String) : Bool :=
  let name := c.name.toList
  let type := c.type.toList
  (Ddl.spells "PRIMARY".toList name || Ddl.spells "FOREIGN".toList name) &&
      Ddl.spells "KEY".toList type ||
    (Ddl.spells "UNIQUE".toList name &&
        (Ddl.spells "INDEX".toList type || Ddl.spells "KEY".toList type) ||
      (Ddl.leads ("UNIQUE".toList ++ "INDEX".toList) name ||
        Ddl.leads ("UNIQUE".toList ++ "KEY".toList) name))

namespace Export.Sql
open Ddl Text

variable {c : Column String}

theorem stops_type_tail (h : c.Printable) {p : Char → Bool}
    (hp : ∀ ch, isLetter ch = true → p ch = false) : Stops p (c.type.toList ++ columnTail c) :=
  Stops.append h.type_ne_nil (h.type_stops hp)

theorem isBlank_of_isLetter {c : Char} (h : isLetter c = true) : isBlank c = false :=
  isBlank_of_isWord (isWord_of_isLetter h)

theorem not_opens_of_isLetter {c : Char} (h : isLetter c = true) : (c == '(') = false := by
  rw [beq_eq_false_iff_ne]
  exact (isFlat_spec (isFlat_of_isWord (isWord_of_isLetter h))).1

theorem stops_word_columnTail (h : c.Printable) {w : List Char}
    (hw : ∀ l ∈ w, sameLetter l '(' = false ∧ sameLetter l ' ' = false) :
    ∀ l ∈ w, Stops (sameLetter l) (columnTail c) :=
  fun l hl => stops_columnTail h (hw l hl).1 (hw l hl).2

theorem isWord_columnTail (h : c.Printable) : Stops isWord (columnTail c) :=
  stops_columnTail h (by decide +kernel) (by decide +kernel)

theorem columnLine_eq (h : c.Printable) :
    columnLine c = c.name.toList ++ ' ' :: (c.type.toList ++ columnTail c) := by
  rw [columnLine, h.baseType_eq]

/-- A line tells the name of its column. -/
theorem takeWhile_columnLine (h : c.Printable) : (columnLine c).takeWhile (!isBlank ·) = c.name.toList := by
  rw [columnLine_eq h]
  refine (takeWhile_append_stop (fun ch hch => ?_) (stops_cons.2 (by decide))).1
  rw [(isNameChar_spec (h.name_chars ch hch)).1]
  rfl

theorem columnLine_inj {c' : Column String} (h : c.Printable) (h' : c'.Printable)
    (he : columnLine c' = columnLine c) :
    c'.name = c.name ∧ c'.type.toList ++ columnTail c' = c.type.toList ++ columnTail c := by
  have hname : c'.name.toList = c.name.toList := by
    rw [← takeWhile_columnLine h, ← takeWhile_columnLine h', he]
  rw [columnLine_eq h, columnLine_eq h', hname] at he
  exact ⟨String.toList_injective hname, (List.cons.inj (List.append_cancel_left he)).2⟩

/-- Tables of equal lines have the same names of columns. -/
theorem Printable.names_eq {ts us : List (Table String)} {t u : Table String} (h : Printable ts)
    (ht : t ∈ ts) (h' : Printable us) (hu : u ∈ us) (he : lines us u = lines ts t) :
    u.columns.map (·.name.toList) = t.columns.map (·.name.toList) := by
  have hnames : ∀ {ts : List (Table String)} {t : Table String}, Printable ts → t ∈ ts →
      (t.columns.map columnLine).map (List.takeWhile (!isBlank ·)) = t.columns.map (·.name.toList) := by
    intro ts t h ht
    rw [List.map_map]
    exact List.map_congr_left fun c hc => takeWhile_columnLine (h.columns t ht c hc)
  rw [← hnames h ht, ← hnames h' hu, h.columnLines_eq ht h' hu he]

/-- A column that looks like a clause is lost. -/
theorem isTableClause_of_looksLikeClause (h : c.Printable) (hl : c.looksLikeClause = true) :
    isTableClause (columnLine c) = true := by
  have hr := stops_type_tail h fun _ => isBlank_of_isLetter
  have ho := stops_type_tail h fun _ => not_opens_of_isLetter
  have hkey : spells "KEY".toList c.type.toList = true →
      leads "KEY".toList (c.type.toList ++ columnTail c) = true :=
    leads_of_spells (stops_word_columnTail h (by decide)) (isWord_columnTail h)
  have hindex : spells "INDEX".toList c.type.toList = true →
      leads "INDEX".toList (c.type.toList ++ columnTail c) = true :=
    leads_of_spells (stops_word_columnTail h (by decide)) (isWord_columnTail h)
  unfold isTableClause
  rw [columnLine_eq h, keyWords_name h.name_chars hr, uniqueWords_name h.name_chars hr ho]
  simp only [Column.looksLikeClause, Bool.or_eq_true, Bool.and_eq_true] at hl ⊢
  refine .inl (.inl ?_)
  obtain ⟨hp, hk⟩ | ⟨hu, hik⟩ | hjoined := hl
  · exact .inl (.inr ⟨hp, hkey hk⟩)
  · exact .inr (.inl ⟨hu, hik.imp hindex hkey⟩)
  · exact .inr (.inr hjoined)

theorem spacedMark_flagChars (notNull unique : Bool) :
    spacedMark '(' (flagChars notNull unique) = none := by
  cases notNull <;> cases unique <;> decide +kernel

/-- No clause follows the name of a constraint that is read from a column. -/
theorem gap_flagChars (notNull unique : Bool) :
    (gap (flagChars notNull unique)).any
      (fun rest => keyWords rest || uniqueWords rest || checkWords rest) = false := by
  cases notNull <;> cases unique <;> decide +kernel

theorem not_isDecimal_of_namesColumn {s : List Char} (h : Stops (!isDecimal ·) s) :
    namesColumn s = false := by
  cases s with
  | nil => rfl
  | cons d s =>
    rw [stops_cons, Bool.not_eq_false'] at h
    have hall : ∀ n ∈ List.range' 48 10,
        (isQuote (Char.ofNat n) || isLetter (Char.ofNat n) || Char.ofNat n == '_') = false := by decide
    obtain ⟨n, hn, rfl⟩ := ofNat_mem_codes (List.contains_iff_mem.1 h)
    exact hall n hn

theorem stops_decimal_append (k : Nat) (s : List Char) : Stops (!isDecimal ·) (decimal k ++ s) := by
  refine Stops.append (decimal_ne_nil k) fun d hd => ?_
  rw [decimal_isDecimal k d (List.mem_of_mem_head? hd)]
  rfl

theorem isBlank_of_isDecimal {c : Char} (h : isDecimal c = true) : isBlank c = false :=
  (isDecimal_spec h).2.2.1

/-- A length is no list of columns. -/
theorem namesColumn_columnTail (h : c.Printable) {inner : List Char}
    (hi : spacedMark '(' (columnTail c) = some inner) : namesColumn (skipBlanks inner) = false := by
  unfold columnTail at hi
  obtain ⟨hl, -⟩ | ⟨k, -, -, hl⟩ := h.lengthChars_eq
  · rw [hl, List.nil_append, spacedMark_flagChars] at hi
    cases hi
  · rw [hl, List.cons_append, List.append_assoc, spacedMark,
      skipBlanks_of_stops (stops_cons.2 (by decide))] at hi
    cases hi
    rw [skipBlanks_of_stops]
    · exact not_isDecimal_of_namesColumn (stops_decimal_append k _)
    · exact Stops.append (decimal_ne_nil k) fun d hd =>
        isBlank_of_isDecimal (decimal_isDecimal k d (List.mem_of_mem_head? hd))

theorem name_type_tail (h : c.Printable) (ht : ∀ ch ∈ c.type.toList, isLetter ch = true) :
    name (c.type.toList ++ columnTail c) = some (c.type.toList, columnTail c) :=
  name_append_stop ⟨h.type_ne_nil, fun ch hch => isWord_of_isLetter (ht ch hch)⟩
    (isWord_columnTail h) (stops_columnTail h (by decide) (by decide))

theorem run_type_length (h : c.Printable) :
    run (!isBlank ·) (c.type.toList ++ columnTail c) =
      some (c.type.toList ++ lengthChars c, flagChars (!c.nullable) (c.unique && !c.primaryKey)) := by
  unfold columnTail
  rw [← List.append_assoc]
  refine run_append_stop (List.append_ne_nil_of_left_ne_nil h.type_ne_nil _) ?_ ?_
  · intro ch hch
    rw [Bool.not_eq_true']
    rcases List.mem_append.1 hch with hch | hch
    · exact (isTypeChar_spec (h.type_chars ch hch)).1
    · obtain ⟨hl, -⟩ | ⟨k, -, -, hl⟩ := h.lengthChars_eq
      · rw [hl] at hch
        cases hch
      · rw [hl] at hch
        rcases List.mem_cons.1 hch with rfl | hch
        · decide
        · rcases List.mem_append.1 hch with hch | hch
          · exact isBlank_of_isDecimal (decimal_isDecimal k ch hch)
          · rw [List.mem_singleton.1 hch]
            decide
  · obtain hf | ⟨s, hf⟩ := flagChars_eq (!c.nullable) (c.unique && !c.primaryKey)
    · rw [hf]
      exact stops_nil _
    · rw [hf]
      exact stops_cons.2 (by decide)

/-- A column of a plain type is taken for a clause exactly if it looks like one. -/
theorem isTableClause_columnLine (h : c.Printable) (ht : ∀ ch ∈ c.type.toList, isLetter ch = true) :
    isTableClause (columnLine c) = c.looksLikeClause := by
  have hr := stops_type_tail h fun _ => isBlank_of_isLetter
  have ho := stops_type_tail h fun _ => not_opens_of_isLetter
  have hkey : leads "KEY".toList (c.type.toList ++ columnTail c) = spells "KEY".toList c.type.toList :=
    leads_append (stops_word_columnTail h (by decide)) ht (isWord_columnTail h)
  have hindex : leads "INDEX".toList (c.type.toList ++ columnTail c) =
      spells "INDEX".toList c.type.toList :=
    leads_append (stops_word_columnTail h (by decide)) ht (isWord_columnTail h)
  have hcolumns : indexWords (c.name.toList ++ ' ' :: (c.type.toList ++ columnTail c)) = false := by
    refine indexWords_name h.name_chars hr ho fun found rest hname inner hinner => ?_
    rw [name_type_tail h ht] at hname
    cases hname
    exact namesColumn_columnTail h hinner
  have hconstraint : (constraintName (c.name.toList ++ ' ' :: (c.type.toList ++ columnTail c))).any
      (fun rest => keyWords rest || uniqueWords rest || checkWords rest) = false := by
    rw [constraintName_name h.name_chars hr]
    split
    · rw [run_type_length h, Option.bind_some]
      exact gap_flagChars _ _
    · rfl
  unfold isTableClause
  rw [columnLine_eq h, hconstraint, hcolumns, keyWords_name h.name_chars hr,
    uniqueWords_name h.name_chars hr ho, checkWords_name h.name_chars hr ho, hkey, hindex]
  simp only [Column.looksLikeClause, Bool.false_or, Bool.or_false]

theorem definition?_columnLine (h : c.Printable) :
    definition? (columnLine c) = some
      { name := c.name.toList
        type := c.type.toList.takeWhile isLetter
        length := (qualifier (c.type.toList.dropWhile isLetter ++ columnTail c)).1
        modifiers := (qualifier (c.type.toList.dropWhile isLetter ++ columnTail c)).2 } := by
  have hquote : skipQuote (columnLine c) = columnLine c := by
    rw [columnLine_eq h]
    exact skipQuote_of_stops (Stops.append h.name_ne_nil
      (h.name_stops fun ch hch => (isNameChar_spec hch).2.1))
  have hname : run isNameChar (columnLine c) =
      some (c.name.toList, ' ' :: (c.type.toList ++ columnTail c)) := by
    rw [columnLine_eq h]
    exact run_append_stop h.name_ne_nil h.name_chars (stops_cons.2 (by decide))
  have hskip : skipQuote (' ' :: (c.type.toList ++ columnTail c)) =
      ' ' :: (c.type.toList ++ columnTail c) := skipQuote_of_stops (stops_cons.2 (by decide))
  have hgap : gap (' ' :: (c.type.toList ++ columnTail c)) = some (c.type.toList ++ columnTail c) :=
    gap_space (stops_type_tail h fun _ => isBlank_of_isLetter)
  have htype : run isLetter (c.type.toList ++ columnTail c) =
      some (c.type.toList.takeWhile isLetter, c.type.toList.dropWhile isLetter ++ columnTail c) := by
    have hsplit : c.type.toList ++ columnTail c = c.type.toList.takeWhile isLetter ++
        (c.type.toList.dropWhile isLetter ++ columnTail c) := by
      rw [← List.append_assoc, List.takeWhile_append_dropWhile]
    rw [hsplit]
    refine run_append_stop ?_ (fun ch hch => List.all_eq_true.1 List.all_takeWhile ch hch) ?_
    · intro he
      have hhead := h.type_head
      cases hty : c.type.toList with
      | nil => exact h.type_ne_nil hty
      | cons ch s =>
        rw [hty] at hhead he
        rw [List.takeWhile_cons_of_pos (by simpa using hhead)] at he
        cases he
    · refine Stops.append_of_both ?_ (stops_columnTail h (by decide) (by decide))
      intro ch hch
      simpa [Option.mem_def.1 hch] using List.head?_dropWhile_not isLetter c.type.toList
  simp only [definition?, hquote, hname, hskip, hgap, htype, Option.bind_eq_bind, Option.bind_some,
    Option.pure_def]

/-- The digits of a length that is written. -/
def lengthDigits (c : Column String) : Option (List Char) := c.length?.map fun n => (writeInt n).toList

theorem qualifier_columnTail (h : c.Printable) :
    qualifier (columnTail c) =
      (lengthDigits c, flagChars (!c.nullable) (c.unique && !c.primaryKey)) := by
  unfold columnTail lengthDigits
  obtain ⟨hl, hn⟩ | ⟨k, hk, -, hl⟩ := h.lengthChars_eq
  · rw [hl, hn, List.nil_append, qualifier, spacedMark_flagChars]
    rfl
  · have hopen : spacedMark '(' (lengthChars c ++ flagChars (!c.nullable) (c.unique && !c.primaryKey)) =
        some (decimal k ++ ')' :: flagChars (!c.nullable) (c.unique && !c.primaryKey)) := by
      rw [hl, List.cons_append, List.append_assoc, spacedMark,
        skipBlanks_of_stops (stops_cons.2 (by decide))]
      rfl
    have hdigits : ∀ d ∈ decimal k, (d != ')') = true := fun d hd => by
      rw [bne_iff_ne]
      exact (isFlat_spec (isDecimal_isFlat (decimal_isDecimal k d hd))).2.1
    have hclose : Stops (· != ')') (')' :: flagChars (!c.nullable) (c.unique && !c.primaryKey)) :=
      stops_cons.2 (by decide)
    obtain ⟨htake, hdrop⟩ := takeWhile_append_stop hdigits hclose
    have htrim : trim (decimal k) = decimal k :=
      trim_of_forall fun d hd => isBlank_of_isDecimal (decimal_isDecimal k d hd)
    have hwritten : (writeInt (k : Int)).toList = decimal k := String.toList_ofList
    simp only [qualifier, hopen, htake, hdrop, htrim, hk, Option.map_some, hwritten]

/-- The definition that a line of a plain type holds. -/
def definitionOf (c : Column String) : Definition :=
  { name := c.name.toList
    type := c.type.toList
    length := lengthDigits c
    modifiers := flagChars (!c.nullable) (c.unique && !c.primaryKey) }

theorem definition?_of_letters (h : c.Printable) (ht : ∀ ch ∈ c.type.toList, isLetter ch = true) :
    definition? (columnLine c) = some (definitionOf c) := by
  rw [definition?_columnLine h, List.takeWhile_eq_self_iff.2 ht, List.dropWhile_eq_nil_iff.2 ht,
    List.nil_append, qualifier_columnTail h, definitionOf]

theorem typeLength_definitionOf (h : c.Printable) : (definitionOf c).typeLength = .ok c.length? := by
  unfold Definition.typeLength definitionOf lengthDigits
  cases hl : c.length? with
  | none => rfl
  | some n =>
    obtain ⟨k, rfl, hk⟩ := h.length n hl
    have hwritten : (writeInt (k : Int)).toList = decimal k := String.toList_ofList
    have hdigits : (decimal k).all isDigit = true :=
      List.all_eq_true.2 fun d hd => (isDecimal_spec (decimal_isDecimal k d hd)).1
    have hne : (decimal k).isEmpty = false := by
      cases hd : decimal k with
      | nil => exact absurd hd (decimal_ne_nil k)
      | cons d ds => rfl
    simp only [Option.map_some, hwritten, hdigits, hne, Bool.not_false, Bool.and_self, if_true,
      readNat_decimal hk, Except.map]
    rfl

theorem modifiers_flagChars (notNull unique : Bool) :
    hasPhrase ["NOT".toList, "NULL".toList] false (flagChars notNull unique) = notNull ∧
      hasPhrase ["UNIQUE".toList] false (flagChars notNull unique) = unique ∧
      hasPhrase ["PRIMARY".toList, "KEY".toList] false (flagChars notNull unique) = false := by
  cases notNull <;> cases unique <;> decide +kernel

/-- A column as its line tells it: what the clauses of the table say of it is left out. -/
def readBack (c : Column String) : Column String :=
  { c with
    typeLength := c.length?
    unique := c.unique && !c.primaryKey
    primaryKey := false
    foreignKey := false
    references := Reference.unset }

theorem columnOf_definitionOf (h : c.Printable) :
    Body.columnOf (definitionOf c) c.length? = readBack c := by
  obtain ⟨hn, hu, hp⟩ := modifiers_flagChars (!c.nullable) (c.unique && !c.primaryKey)
  unfold Body.columnOf definitionOf Definition.notNull Definition.unique Definition.primaryKey readBack
  simp only [hn, hu, hp, lower_of_isTypeChar h.type_chars, String.ofList_toList, Bool.not_not]

/-- The column that a references clause names stands behind a parenthesis. -/
theorem referencesClause?_eq_some {s : List Char} {target : Target}
    (h : referencesClause? s = some target) :
    ∃ inner found rest, '(' :: inner <:+ s ∧ name (skipBlanks inner) = some (found, rest) ∧
      target.column = String.ofList found := by
  obtain ⟨k, hk, h⟩ := Option.bind_eq_some_iff.1 h
  obtain ⟨g, hg, h⟩ := Option.bind_eq_some_iff.1 h
  obtain ⟨⟨table, u⟩, hu, h⟩ := Option.bind_eq_some_iff.1 h
  obtain ⟨⟨column, v⟩, hv, h⟩ := Option.bind_eq_some_iff.1 h
  obtain ⟨inner, hi, hv⟩ := Option.bind_eq_some_iff.1 hv
  obtain ⟨⟨found, rest⟩, hn, hv⟩ := Option.bind_eq_some_iff.1 hv
  obtain ⟨w, -, hv⟩ := Option.bind_eq_some_iff.1 hv
  cases hv
  cases h
  exact ⟨inner, column, rest, (spacedMark_suffix_cons hi).trans ((name_suffix hu).trans
    ((gap_suffix hg).1.trans (keyword_suffix hk))), hn, rfl⟩

/-- A reference that is read from the line of a column names a number. -/
theorem inlineTarget?_columnLine (h : c.Printable) {target : Target}
    (ht : inlineTarget? false (columnLine c) = some target) :
    ∃ k, target.column = String.ofList (decimal k) := by
  obtain ⟨u, hu, hr⟩ := inlineTarget?_suffix ht
  obtain ⟨inner, found, rest, hin, hname, hcol⟩ := referencesClause?_eq_some hr
  obtain ⟨before, hbefore⟩ := hin.trans hu
  have hlead : '(' ∉ c.name.toList ++ ' ' :: c.type.toList := by
    intro hmem
    rcases List.mem_append.1 hmem with hmem | hmem
    · exact (isFlat_spec (isNameChar_spec (h.name_chars _ hmem)).2.2).1 rfl
    · rcases List.mem_cons.1 hmem with hmem | hmem
      · exact absurd hmem (by decide)
      · exact (isFlat_spec (isTypeChar_spec (h.type_chars _ hmem)).2.1).1 rfl
  have hflags : ∀ a b, '(' ∉ flagChars a b := fun a b hmem =>
    (isFlat_spec (flagChars_flat a b _ hmem)).1 rfl
  have hline : columnLine c = (c.name.toList ++ ' ' :: c.type.toList) ++ columnTail c := by
    rw [columnLine_eq h, List.append_assoc, List.cons_append]
  rw [hline] at hbefore
  unfold columnTail at hbefore
  obtain ⟨hl, -⟩ | ⟨k, -, -, hl⟩ := h.lengthChars_eq
  · rw [hl, List.nil_append] at hbefore
    have hmem : '(' ∈ (c.name.toList ++ ' ' :: c.type.toList) ++
        flagChars (!c.nullable) (c.unique && !c.primaryKey) := by
      rw [← hbefore]
      simp
    exact absurd hmem (List.not_mem_append hlead (hflags _ _))
  · rw [hl, List.cons_append] at hbefore
    have hafter : '(' ∉ decimal k ++ [')'] ++ flagChars (!c.nullable) (c.unique && !c.primaryKey) := by
      intro hmem
      rcases List.mem_append.1 hmem with hmem | hmem
      · rcases List.mem_append.1 hmem with hmem | hmem
        · exact absurd (decimal_isDecimal k _ hmem) (by decide)
        · exact absurd (List.mem_singleton.1 hmem) (by decide)
      · exact hflags _ _ hmem
    obtain ⟨-, -, rfl⟩ := (List.append_cons_inj_of_notMem hlead hafter).1 hbefore.symm
    have hword : Word (decimal k) :=
      ⟨decimal_ne_nil k, fun d hd => (isDecimal_spec (decimal_isDecimal k d hd)).2.1⟩
    have hclose : Stops isWord (')' :: flagChars (!c.nullable) (c.unique && !c.primaryKey)) :=
      stops_cons.2 (by decide +kernel)
    have hfound := name_append_stop hword hclose (stops_cons.2 (by decide))
    rw [List.append_assoc, List.singleton_append, skipBlanks_of_stops
      (Stops.append hword.1 (hword.stops fun _ => isBlank_of_isWord)), hfound] at hname
    cases hname
    exact ⟨k, hcol⟩

/-- No column is named by a number. -/
theorem not_isValidName_decimal (k : Nat) :
    Validation.isValidName (String.ofList (decimal k)) = false := by
  unfold Validation.isValidName
  rw [String.toList_ofList]
  cases hk : decimal k with
  | nil => exact absurd hk (decimal_ne_nil k)
  | cons d ds =>
    by_contra hvalid
    have hchar := Validation.isNameChar_of_matchesName (by simpa using hvalid)
    have hdigit := (isDecimal_spec (decimal_isDecimal k d (by rw [hk]; exact List.mem_cons_self))).1
    simp [Validation.isNameChar, hdigit] at hchar

end Export.Sql

end SchemaDesign
