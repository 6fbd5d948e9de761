import SchemaDesign.Proofs.Sql.OfText

/-! What a schema whose SQL comes back unchanged must be like: a line that is not read as what it
stands for leaves a trace in the text. -/
namespace SchemaDesign
open Text

namespace Ddl.Body

variable {b b' : Body} {piece : List Char}

theorem columns_of_clauses {ls : List (List Char)} (hl : ∀ l ∈ ls, isTableClause l = true)
    (h : ls.foldlM add b = .ok b') : b'.columns = b.columns := by
  refine foldlM_keeps (P := fun c : Body => c.columns = b.columns) (fun l hmem c c' hc ha => ?_) rfl h
  obtain hsame | ⟨hnot, -⟩ := columns_add ha
  · exact hsame.trans hc
  · rw [hl l hmem] at hnot
    cases hnot

theorem length_columns_le {ls : List (List Char)} (h : ls.foldlM add b = .ok b') :
    b'.columns.length ≤ b.columns.length + ls.length := by
  induction ls generalizing b with
  | nil => cases h; simp
  | cons l ls ih =>
    rw [List.foldlM_cons] at h
    obtain ⟨c, hc, h⟩ := bind_eq_ok.1 h
    have hle := ih h
    obtain hsame | ⟨-, d, inlined, len, -, -, hcols⟩ := columns_add hc
    · rw [hsame] at hle
      rw [List.length_cons]
      omega
    · rw [hcols, List.length_append, List.length_singleton] at hle
      rw [List.length_cons]
      omega

/-- A column for each line is only there if each line is read as a column. -/
theorem columns_of_length_eq {ls : List (List Char)} (h : ls.foldlM add b = .ok b')
    (hlen : b'.columns.length = b.columns.length + ls.length) :
    ∃ cs, b'.columns = b.columns ++ cs ∧
      List.Forall₂ (fun l c => ∃ d inlined len, Piece.ofText l = .column d inlined ∧
        d.typeLength = .ok len ∧ c = columnOf d len) ls cs := by
  induction ls generalizing b with
  | nil => cases h; exact ⟨[], (List.append_nil _).symm, .nil⟩
  | cons l ls ih =>
    rw [List.foldlM_cons] at h
    obtain ⟨c, hc, h⟩ := bind_eq_ok.1 h
    have hle := length_columns_le h
    rw [List.length_cons] at hlen
    obtain hsame | ⟨-, d, inlined, len, hd, hl, hcols⟩ := columns_add hc
    · rw [hsame] at hle
      omega
    · rw [hcols, List.length_append, List.length_singleton] at hle
      obtain ⟨cs, hcs, hall⟩ := ih h (by rw [hcols, List.length_append, List.length_singleton]; omega)
      refine ⟨columnOf d len :: cs, ?_, .cons ⟨d, inlined, len, hd, hl, rfl⟩ hall⟩
      rw [hcs, hcols, List.append_assoc, List.singleton_append]

/-- A primary key that a clause sets is a word. -/
theorem primaryKey_word {ls : List (List Char)} (hb : ∀ k, b.primaryKey = some k → Word k.toList)
    (h : ls.foldlM add b = .ok b') : ∀ k, b'.primaryKey = some k → Word k.toList := by
  refine foldlM_keeps (P := fun b : Body => ∀ k, b.primaryKey = some k → Word k.toList)
    (fun l _ c c' hc ha => ?_) hb h
  obtain ⟨k, hk, rfl⟩ | ⟨k, target, -, rfl⟩ | ⟨reason, rfl⟩ | ⟨d, inlined, len, -, -, -, -, rfl⟩ :=
    add_eq_ok ha
  · intro k' hk'
    cases hk'
    exact primaryKeyClause?_word (Piece.ofText_eq_primaryKey hk)
  · exact hc
  · exact hc
  · exact hc

end Ddl.Body

namespace Export.Sql
open Ddl

/-- A table that is read from the lines of `t` and has the same lines. -/
structure SameLines (ts : List (Table String)) (t : Table String) (batch : List Pending) (p : Pending)
    (b : Body) : Prop where
  printable : Printable ts
  mem : t ∈ ts
  reread : Printable (batch.map (resolveTable batch))
  pending : p ∈ batch
  body : Body.ofPieces (lines ts t) = .ok b
  columns : p.table.columns = PrimaryKey.normalise b.primaryKey b.columns
  foreignKeys : p.foreignKeys = b.foreignKeys
  lines : lines (batch.map (resolveTable batch)) (resolveTable batch p) = lines ts t

namespace SameLines

variable {ts : List (Table String)} {t : Table String} {batch : List Pending} {p : Pending} {b : Body}

theorem resolved_mem (h : SameLines ts t batch p b) :
    resolveTable batch p ∈ batch.map (resolveTable batch) := List.mem_map_of_mem h.pending

theorem columnLines (h : SameLines ts t batch p b) :
    (resolveTable batch p).columns.map columnLine = t.columns.map columnLine :=
  h.printable.columnLines_eq h.mem h.reread h.resolved_mem h.lines

theorem clauseLines (h : SameLines ts t batch p b) :
    keyLines (resolveTable batch p) ++ linkLines (batch.map (resolveTable batch)) (resolveTable batch p) =
      keyLines t ++ linkLines ts t := by
  rw [← (h.printable.filter_lines h.mem).2, ← (h.reread.filter_lines h.resolved_mem).2, h.lines]

theorem length_columns (h : SameLines ts t batch p b) : b.columns.length = t.columns.length := by
  have hlen := congrArg List.length h.columnLines
  rw [List.length_map, List.length_map] at hlen
  have hread : (resolveTable batch p).columns.length = b.columns.length := by
    unfold resolveTable
    rw [List.length_map, h.columns, PrimaryKey.normalise_eq_map, List.length_map]
  rw [← hread, hlen]

/-- Each column is read from its own line. -/
theorem readColumns (h : SameLines ts t batch p b) :
    List.Forall₂ (fun c c' => ∃ d inlined len, Piece.ofText (columnLine c) = .column d inlined ∧
      d.typeLength = .ok len ∧ c' = Body.columnOf d len) t.columns b.columns := by
  have hbody := h.body
  unfold Body.ofPieces at hbody
  rw [lines_eq_append, List.foldlM_append] at hbody
  obtain ⟨c, hc, hbody⟩ := bind_eq_ok.1 hbody
  have hclauses : ∀ l ∈ keyLines t ++ linkLines ts t, isTableClause l = true := by
    intro l hl
    obtain ⟨key, rfl⟩ | ⟨column, table, target, rfl⟩ := h.printable.clause_cases h.mem hl
    · exact isTableClause_keyLine key
    · exact isTableClause_linkLine column table target
  have hsame := Body.columns_of_clauses hclauses hbody
  obtain ⟨cs, hcs, hall⟩ := Body.columns_of_length_eq hc (by
    rw [← hsame, h.length_columns, List.length_map]
    exact (Nat.zero_add _).symm)
  rw [hsame, hcs]
  exact List.forall₂_map_left_iff.1 hall

theorem looksLikeClause_eq (h : SameLines ts t batch p b) :
    ∀ c ∈ t.columns, c.looksLikeClause = false := by
  intro c hc
  obtain ⟨i, hi, rfl⟩ := List.getElem_of_mem hc
  obtain ⟨d, inlined, len, hd, -, -⟩ := h.readColumns.get hi (h.length_columns ▸ hi)
  have hnot := (Piece.ofText_eq_column.1 hd).1
  by_contra hlooks
  have hclause := isTableClause_of_looksLikeClause (h.printable.columns t h.mem _ hc)
    (by simpa using hlooks)
  rw [List.get_eq_getElem, hclause] at hnot
  cases hnot

theorem type_resolved (h : SameLines ts t batch p b) (i : Nat)
    (hi : i < (resolveTable batch p).columns.length) (hi' : i < b.columns.length) :
    (resolveTable batch p).columns[i].type = b.columns[i].type := by
  have hcolumns : (resolveTable batch p).columns.map (·.type) = b.columns.map (·.type) := by
    unfold resolveTable
    rw [h.columns, PrimaryKey.normalise_eq_map, List.map_map, List.map_map]
    refine List.map_congr_left fun c _ => ?_
    rw [Function.comp_apply, Function.comp_apply, resolveColumn_eq, PrimaryKey.mark_type]
  have hget := congrArg (·[i]?) hcolumns
  simpa [hi, hi'] using hget

theorem letters (h : SameLines ts t batch p b) :
    ∀ c ∈ t.columns, ∀ ch ∈ c.type.toList, isLetter ch = true := by
  intro c hc
  obtain ⟨i, hi, rfl⟩ := List.getElem_of_mem hc
  have hib : i < b.columns.length := h.length_columns ▸ hi
  have hi' : i < (resolveTable batch p).columns.length := by
    have hlen := congrArg List.length h.columnLines
    rw [List.length_map, List.length_map] at hlen
    omega
  have hprint := h.printable.columns t h.mem _ hc
  have hprint' := h.reread.columns _ h.resolved_mem _ (List.getElem_mem hi')
  obtain ⟨d, inlined, len, hd, -, hcol⟩ := h.readColumns.get hi hib
  have hdef := (Piece.ofText_eq_column.1 hd).2.1
  rw [List.get_eq_getElem, definition?_columnLine hprint] at hdef
  have htype : (resolveTable batch p).columns[i].type.toList =
      t.columns[i].type.toList.takeWhile isLetter := by
    rw [List.get_eq_getElem] at hcol
    rw [h.type_resolved i hi' hib, hcol, ← Option.some.inj hdef]
    show (String.ofList (lower _)).toList = _
    rw [String.toList_ofList, lower_of_isTypeChar]
    exact fun ch hch => hprint.type_chars ch (List.takeWhile_subset _ hch)
  have hline : columnLine (resolveTable batch p).columns[i] = columnLine t.columns[i] := by
    have hget := congrArg (·[i]?) h.columnLines
    simpa [hi, hi'] using hget
  have htail := (columnLine_inj hprint hprint' hline).2
  have hsplit : t.columns[i].type.toList ++ columnTail t.columns[i] =
      t.columns[i].type.toList.takeWhile isLetter ++
        (t.columns[i].type.toList.dropWhile isLetter ++ columnTail t.columns[i]) := by
    rw [← List.append_assoc, List.takeWhile_append_dropWhile]
  rw [htype, hsplit] at htail
  have hrest := List.append_cancel_left htail
  -- a character of the type that was left out would have to begin what follows the type
  have hstop := stops_columnTail hprint' (p := isTypeChar) (by decide) (by decide)
  cases hdrop : t.columns[i].type.toList.dropWhile isLetter with
  | nil => exact List.dropWhile_eq_nil_iff.1 hdrop
  | cons x s =>
    rw [hrest, hdrop, List.cons_append, stops_cons] at hstop
    have hx : x ∈ t.columns[i].type.toList :=
      (List.dropWhile_suffix isLetter).subset (hdrop ▸ List.mem_cons_self)
    rw [hprint.type_chars x hx] at hstop
    cases hstop

theorem keyLine_inj {j k : List Char} (h : keyLine j = keyLine k) : j = k := by
  have h := List.append_cancel_left h
  rw [List.cons.injEq, List.cons.injEq] at h
  exact List.append_cancel_right h.2.2

theorem keyLine_ne_linkLine (key column table target : List Char) :
    keyLine key ≠ linkLine column table target := by
  intro h
  have hhead : some 'P' = some 'F' := congrArg List.head? h
  exact absurd hhead (by decide)

theorem linkLine_inj {c c' t t' r r' : List Char} (hc : ∀ ch ∈ c, isFlat ch = true)
    (hc' : ∀ ch ∈ c', isFlat ch = true) (h : linkLine c t r = linkLine c' t' r') : c = c' := by
  have hflat : ∀ {s : List Char}, (∀ ch ∈ s, isFlat ch = true) → ∀ ch ∈ s, (ch != ')') = true :=
    fun hs ch hch => by
      rw [bne_iff_ne]
      exact (isFlat_spec (hs ch hch)).2.1
  have hstop : ∀ s : List Char, Stops (· != ')') (')' :: s) := fun s => stops_cons.2 (by decide)
  have h := List.append_cancel_left h
  rw [List.cons.injEq, List.cons.injEq] at h
  have htake := congrArg (List.takeWhile (· != ')')) h.2.2
  rwa [(takeWhile_append_stop (hflat hc) (hstop _)).1,
    (takeWhile_append_stop (hflat hc') (hstop _)).1] at htake

theorem primaryKey_resolved (h : SameLines ts t batch p b) {k : String} (hk : t.primaryKey = some k) :
    (resolveTable batch p).primaryKey = some k := by
  have hmem : keyLine k.toList ∈ keyLines t ++ linkLines ts t := by
    rw [h.printable.keyLines_eq h.mem, hk]
    exact List.mem_append_left _ List.mem_cons_self
  rw [← h.clauseLines] at hmem
  rcases List.mem_append.1 hmem with hmem | hmem
  · rw [h.reread.keyLines_eq h.resolved_mem] at hmem
    obtain ⟨j, hj, he⟩ := List.mem_map.1 hmem
    rw [Option.mem_toList.1 hj, String.toList_injective (keyLine_inj he)]
  · obtain ⟨c, -, d, -, he⟩ := mem_linkLines.1 hmem
    exact absurd he (keyLine_ne_linkLine _ _ _ _)

/-- No flag of a column makes it the primary key. -/
theorem not_primaryKey (h : SameLines ts t batch p b) : ∀ c ∈ b.columns, c.primaryKey = false := by
  intro c hc
  obtain ⟨i, hi, rfl⟩ := List.getElem_of_mem hc
  have hit : i < t.columns.length := h.length_columns ▸ hi
  obtain ⟨d, inlined, len, hd, -, hcol⟩ := h.readColumns.get hit hi
  have hdef := (Piece.ofText_eq_column.1 hd).2.1
  rw [List.get_eq_getElem, definition?_of_letters (h.printable.columns t h.mem _ (List.getElem_mem hit))
    (h.letters _ (List.getElem_mem hit))] at hdef
  rw [List.get_eq_getElem] at hcol
  rw [hcol, ← Option.some.inj hdef]
  exact (modifiers_flagChars _ _).2.2

/-- The primary key comes back only as a word. -/
theorem key_word (h : SameLines ts t batch p b) : ∀ k, t.primaryKey = some k → Word k.toList := by
  intro k hk
  obtain ⟨c, hc, hcp, rfl⟩ := mem_of_primaryKey (h.primaryKey_resolved hk)
  unfold resolveTable at hc
  rw [h.columns, PrimaryKey.normalise_eq_map, List.map_map] at hc
  obtain ⟨e, he, rfl⟩ := List.mem_map.1 hc
  rw [Function.comp_apply, resolveColumn_eq] at hcp
  have hchosen := PrimaryKey.mark_primaryKey.1 hcp
  rw [Function.comp_apply, resolveColumn_name, PrimaryKey.mark_name]
  have hnone : b.columns.find? (·.primaryKey) = none := by
    rw [List.find?_eq_none]
    intro c hc
    simp [h.not_primaryKey c hc]
  unfold PrimaryKey.choose at hchosen
  split at hchosen
  · exact Body.primaryKey_word (b := Body.empty) (fun _ hk => by cases hk) h.body _ hchosen
  · rw [hnone] at hchosen
    cases hchosen

/-- What a body holds for a column is the word of a clause, or a reference to a number. -/
theorem foreignKeys_word (h : SameLines ts t batch p b) :
    ∀ e ∈ b.foreignKeys, Word e.1.toList ∨ NamesNumber e.2 := by
  refine foldlM_keeps (P := fun b : Body => ∀ e ∈ b.foreignKeys, Word e.1.toList ∨ NamesNumber e.2)
    (fun l hl c c' hc ha => ?_) (b := Body.empty) (fun _ he => by cases he) h.body
  obtain ⟨k, -, rfl⟩ | ⟨k, target, hk, rfl⟩ | ⟨reason, rfl⟩ | ⟨d, inlined, len, hd, -, -, -, rfl⟩ :=
    Body.add_eq_ok ha
  · exact hc
  · intro e he
    rcases Assoc.mem_put he with rfl | he
    · exact .inl (foreignKeyClause?_word (Piece.ofText_eq_foreignKey hk)).1
    · exact hc e he
  · exact hc
  · obtain ⟨hnot, -, hinline⟩ := Piece.ofText_eq_column.1 hd
    intro e he
    unfold Body.withColumn at he
    cases inlined with
    | none => exact hc e he
    | some target =>
      rcases Assoc.mem_putNew he with rfl | he
      · right
        rw [lines_eq_append] at hl
        rcases List.mem_append.1 hl with hl | hl
        · obtain ⟨f, hf, rfl⟩ := List.mem_map.1 hl
          exact inlineTarget?_columnLine (h.printable.columns t h.mem f hf) hinline.symm
        · obtain ⟨key, rfl⟩ | ⟨column, table, ref, rfl⟩ := h.printable.clause_cases h.mem hl
          · rw [isTableClause_keyLine] at hnot
            cases hnot
          · rw [isTableClause_linkLine] at hnot
            cases hnot
      · exact hc e he

/-- A reference comes back only to a column that is a word. -/
theorem links_word (h : SameLines ts t batch p b) :
    ∀ c ∈ t.columns, (c.target? ts).isSome = true → Word c.name.toList := by
  intro c hc hset
  obtain ⟨d, hd⟩ := Option.isSome_iff_exists.1 hset
  have hmem : linkLine c.name.toList d.name.toList c.references.columnName.toList ∈
      keyLines t ++ linkLines ts t :=
    List.mem_append_right _ (mem_linkLines.2 ⟨c, hc, d, hd, rfl⟩)
  rw [← h.clauseLines] at hmem
  rcases List.mem_append.1 hmem with hmem | hmem
  · rw [h.reread.keyLines_eq h.resolved_mem] at hmem
    obtain ⟨j, -, he⟩ := List.mem_map.1 hmem
    exact absurd he (keyLine_ne_linkLine _ _ _ _)
  · obtain ⟨c', hc', d', hd', hline⟩ := mem_linkLines.1 hmem
    have hname := linkLine_inj (h.printable.flat_name h.mem hc) (h.reread.flat_name h.resolved_mem hc')
      hline
    obtain ⟨e, he, rfl⟩ := List.mem_map.1 hc'
    obtain hsame | hunset | ⟨target, q, hget, hq, hcol, -, -⟩ := resolveColumn_cases batch p e
    · rw [hsame] at hd'
      rw [h.columns, PrimaryKey.normalise_eq_map] at he
      obtain ⟨f, hf, rfl⟩ := List.mem_map.1 he
      have hforeign := (Column.target?_eq_some hd').1
      rw [PrimaryKey.mark_foreignKey, ((Body.fresh_ofPieces h.body).plain f hf).1] at hforeign
      cases hforeign
    · rw [Column.target?_of_unset hunset] at hd'
      cases hd'
    · rw [hname, resolveColumn_name]
      rw [h.foreignKeys] at hget
      rcases h.foreignKeys_word _ (Assoc.mem_of_get? hget) with hword | hnumber
      · exact hword
      · have hkeyed := h.reread.keyed _ (List.mem_map_of_mem (List.mem_of_find?_eq_some hq))
        rw [← resolveTable_columnNames batch q] at hcol
        exact absurd hcol (not_mem_of_namesNumber hkeyed hnumber)

theorem faithful (h : SameLines ts t batch p b) : Faithful ts t :=
  ⟨⟨h.key_word, h.links_word⟩, h.looksLikeClause_eq, h.letters⟩

end SameLines

/-- SQL that comes back unchanged is faithful. -/
theorem faithful_of_generate_eq {ts : List (Table String)} (h : Printable ts)
    (hsource : source (generate ts) = (generate ts).toList) {ids : TableId.Supply} {r : Report}
    (hr : read ids (generate ts) = .ok r) (he : generate r.tables = generate ts) :
    ∀ t ∈ ts, Faithful ts t := by
  have hu := printable_read hr
  have hlines := h.lines_eq hu he
  obtain ⟨batch, skipped, hb, htables, -⟩ := read_eq_ok hr
  obtain ⟨-, hall⟩ := readStatements_eq_ok hb
  rw [hsource, h.statements_generate.1] at hall
  rw [htables] at hu hlines
  intro t ht
  obtain ⟨i, hi, rfl⟩ := List.getElem_of_mem ht
  have hip : i < (printed ts).length := by simpa [printed] using hi
  have hib : i < batch.length := hall.length_eq ▸ hip
  obtain ⟨b, hrf⟩ := hall.get hip hib
  have hsame := (hlines.get hi (by simpa using hib)).2
  have hst : (printed ts).get ⟨i, hip⟩ = (ts[i].name.toList, bodyChars ts ts[i]) := by simp [printed]
  have hbody := hrf.pieces
  rw [hst, h.pieces_bodyChars ht] at hbody
  have hlines : SameLines ts ts[i] batch (batch.get ⟨i, hib⟩) b :=
    ⟨h, ht, hu, List.getElem_mem hib, hbody, congrArg Table.columns hrf.table, hrf.foreignKeys,
      by simpa using hsame⟩
  exact hlines.faithful

end Export.Sql

end SchemaDesign
