import SchemaDesign.Proofs.Ddl.Report
import SchemaDesign.Proofs.Sql.Body

/-! Reading the SQL of a schema whose lines are faithful: nothing is skipped, every column is
restored, and a reference leads to the table that stands where the old target stood. -/
namespace SchemaDesign.Export.Sql
open Ddl Text

/-- A column without its reference. A length of zero is none. -/
def detached (c : Column String) : Column String :=
  { c with typeLength := c.length?, foreignKey := false, references := Reference.unset }

variable {ts : List (Table String)} {t : Table String}

theorem normalise_readBack (h : Column.Keyed t.columns) :
    PrimaryKey.normalise t.primaryKey (t.columns.map readBack) = t.columns.map detached := by
  have hchoose : PrimaryKey.choose t.primaryKey (t.columns.map readBack) = t.primaryKey := by
    cases hk : t.primaryKey with
    | none =>
      rw [PrimaryKey.choose_eq_none_iff, List.forall_mem_map]
      exact fun c _ => ⟨nofun, rfl⟩
    | some k =>
      obtain ⟨d, hd, -, rfl⟩ := mem_of_primaryKey hk
      exact PrimaryKey.choose_of_named ⟨readBack d, List.mem_map_of_mem hd, rfl⟩
  rw [PrimaryKey.normalise_eq_map, hchoose, List.map_map]
  refine List.map_congr_left fun c hc => ?_
  have hkey : t.primaryKey = some (readBack c).name ↔ c.primaryKey = true :=
    h.primaryKey_eq_some_iff hc
  rw [Function.comp_apply]
  cases hp : c.primaryKey with
  | true =>
    obtain ⟨hnull, huniq⟩ := h.key_strict c hc hp
    rw [PrimaryKey.mark_of_chosen (hkey.2 hp)]
    simp [readBack, detached, hp, hnull, huniq]
  | false =>
    have hother : t.primaryKey ≠ some (readBack c).name := fun hk =>
      Bool.false_ne_true (hp.symm.trans (hkey.1 hk))
    rw [PrimaryKey.mark_of_other hother]
    simp [readBack, detached, hp]

/-- A pending table that stands for a printed one. -/
structure Rereads (ts : List (Table String)) (t : Table String) (p : Pending) : Prop where
  name : p.table.name = t.name
  columns : p.table.columns = t.columns.map detached
  links : ∀ c ∈ t.columns, ∀ d, c.target? ts = some d →
    Assoc.get? c.name p.foreignKeys = some ⟨d.name, c.references.columnName⟩
  numbers : ∀ c ∈ t.columns, c.target? ts = none →
    ∀ target, Assoc.get? c.name p.foreignKeys = some target → NamesNumber target

theorem readTable_printed (h : Printable ts) (ht : t ∈ ts) (hf : Faithful ts t) (id : String) :
    ∃ p, readTable id (String.ofList t.name.toList) (bodyChars ts t) = .ok (p, []) ∧
      Rereads ts t p := by
  obtain ⟨links, hb, hkeys, hlinks⟩ := ofPieces_lines h ht hf
  have hmissing : Body.missingColumns ⟨t.columns.map readBack, t.primaryKey, links, []⟩ t.name = [] := by
    rw [Body.missingColumns, List.map_eq_nil_iff, List.filter_eq_nil_iff]
    intro e he
    obtain ⟨c, hc, hname⟩ := List.mem_map.1 (hkeys e he)
    simpa [readBack] using ⟨c, hc, hname⟩
  refine ⟨⟨⟨id, t.name, "", t.columns.map detached⟩, links⟩, ?_, rfl, rfl,
    fun c hc => (hlinks c hc).1, fun c hc => (hlinks c hc).2⟩
  rw [readTable, h.pieces_bodyChars ht, hb, String.ofList_toList]
  show Except.ok _ = _
  rw [hmissing, normalise_readBack (h.keyed t ht)]
  rfl

theorem readStatements_printed (h : Printable ts) (hf : ∀ t ∈ ts, Faithful ts t)
    {us : List (Table String)} (hus : ∀ t ∈ us, t ∈ ts) (ids : TableId.Supply) :
    ∃ ps, readStatements ids (us.map fun t => (t.name.toList, bodyChars ts t)) = .ok (ps, []) ∧
      List.Forall₂ (Rereads ts) us ps := by
  induction us generalizing ids with
  | nil => exact ⟨[], rfl, .nil⟩
  | cons u us ih =>
    have hu := hus u List.mem_cons_self
    obtain ⟨p, hp, hread⟩ := readTable_printed h hu (hf u hu) ids.first
    obtain ⟨ps, hps, hall⟩ := ih (fun t ht => hus t (List.mem_cons_of_mem _ ht)) (ids.drop 1)
    refine ⟨p :: ps, ?_, .cons hread hall⟩
    rw [List.map_cons, readStatements, hp, hps]
    rfl

/-- The first table of a name is found again where it stood. -/
theorem find?_of_rereads {us : List (Table String)} {ps : List Pending}
    (hall : List.Forall₂ (Rereads ts) us ps) {name : String} {d : Table String}
    (h : us.find? (·.name == name) = some d) :
    ∃ (i : Nat) (p : Pending), us[i]? = some d ∧ ps[i]? = some p ∧ ps.find? (·.table.name == name) = some p ∧
      Rereads ts d p := by
  induction hall with
  | nil => cases h
  | @cons u p us ps hp hall ih =>
    rw [List.find?_cons] at h
    split at h
    · next hname =>
      cases h
      refine ⟨0, p, rfl, rfl, ?_, hp⟩
      rw [List.find?_cons, hp.name, hname]
    · next hname =>
      obtain ⟨i, q, hi, hq, hfind, hread⟩ := ih h
      refine ⟨i + 1, q, hi, hq, ?_, hread⟩
      rw [List.find?_cons, hp.name, hname]
      exact hfind

theorem Rereads.columnNames {p : Pending} (h : Rereads ts t p) :
    p.table.columnNames = t.columnNames := by
  simp [Table.columnNames, h.columns, detached, Function.comp_def]

/-- No table has a column that is named by a number. -/
theorem not_mem_of_namesNumber (h : Column.Keyed t.columns) {target : Target} (hn : NamesNumber target) :
    target.column ∉ t.columnNames := by
  intro hcol
  obtain ⟨k, hk⟩ := hn
  obtain ⟨c, hc, hname⟩ := List.mem_map.1 hcol
  have hvalid := h.names_valid c hc
  rw [hname, hk, not_isValidName_decimal] at hvalid
  cases hvalid

section Resolving

variable {batch : List Pending} (h : Printable ts) (hall : List.Forall₂ (Rereads ts) ts batch)

include h hall

theorem resolve?_of_namesNumber {target : Target} (hn : NamesNumber target) :
    resolve? batch target = none := by
  rw [Option.eq_none_iff_forall_ne_some]
  intro r hr
  obtain ⟨p, hp, hcol, -⟩ := resolve?_eq_some.1 hr
  obtain ⟨i, hi, hpi⟩ := List.getElem_of_mem (List.mem_of_find?_eq_some hp)
  have hi' : i < ts.length := hall.length_eq ▸ hi
  have hread : Rereads ts ts[i] batch[i] := hall.get hi' hi
  rw [← hpi, hread.columnNames] at hcol
  exact not_mem_of_namesNumber (h.keyed _ (List.getElem_mem hi')) hn hcol

variable {p : Pending} {c : Column String}

theorem resolveColumn_of_target (ht : t ∈ ts) (hp : Rereads ts t p) (hc : c ∈ t.columns)
    {d : Table String} (hd : c.target? ts = some d) :
    ∃ (i : Nat) (q : Pending), ts[i]? = some d ∧ batch[i]? = some q ∧
      resolveColumn batch p (detached c) =
        { detached c with
          foreignKey := true
          references := ⟨q.table.id, c.references.columnName⟩ } := by
  obtain ⟨i, q, hi, hq, hfind, hread⟩ := find?_of_rereads hall (h.targets t ht c hc d hd).1
  have hcol : c.references.columnName ∈ q.table.columnNames := by
    rw [hread.columnNames]
    exact (Column.target?_eq_some hd).2.2.2
  have hresolve : resolve? batch ⟨d.name, c.references.columnName⟩ =
      some ⟨q.table.id, c.references.columnName⟩ := resolve?_eq_some.2 ⟨q, hfind, hcol, rfl⟩
  have hget : Assoc.get? (detached c).name p.foreignKeys =
      some ⟨d.name, c.references.columnName⟩ := hp.links c hc d hd
  refine ⟨i, q, hi, hq, ?_⟩
  simp only [resolveColumn, hget, hresolve, Option.getD_some]

theorem resolveColumn_of_none (hp : Rereads ts t p) (hc : c ∈ t.columns)
    (hd : c.target? ts = none) : (resolveColumn batch p (detached c)).references = Reference.unset := by
  unfold resolveColumn
  split
  · next target hget =>
    rw [resolve?_of_namesNumber h hall (hp.numbers c hc hd target hget)]
    rfl
  · rfl

end Resolving

/-- A column of `us` that has everything of a column of `ts`. Its reference is set exactly if the
other one resolves, and then leads to the same column of the table that stands in the same place. -/
structure RestoredColumn (ts us : List (Table String)) (c c' : Column String) : Prop where
  name : c'.name = c.name
  type : c'.type = c.type
  typeLength : c'.typeLength = c.length?
  nullable : c'.nullable = c.nullable
  unique : c'.unique = c.unique
  primaryKey : c'.primaryKey = c.primaryKey
  resolved : ∀ d, c.target? ts = some d → c'.foreignKey = true ∧
    ∃ (i : Nat) (d' : Table String), ts[i]? = some d ∧ us[i]? = some d' ∧
      c'.references = ⟨d'.id, c.references.columnName⟩
  unresolved : c.target? ts = none → c'.references = Reference.unset

structure RestoredTable (ts us : List (Table String)) (t t' : Table String) : Prop where
  name : t'.name = t.name
  columns : List.Forall₂ (RestoredColumn ts us) t.columns t'.columns

/-- The tables of `us` in order have everything of the tables of `ts`. -/
def Restored (ts us : List (Table String)) : Prop := List.Forall₂ (RestoredTable ts us) ts us

theorem restored_resolveTable (h : Printable ts) {batch : List Pending}
    (hall : List.Forall₂ (Rereads ts) ts batch) :
    Restored ts (batch.map (resolveTable batch)) := by
  unfold Restored
  rw [List.forall₂_map_right_iff, List.forall₂_iff_get]
  refine ⟨hall.length_eq, fun i hi hi' => ?_⟩
  have ht : ts[i] ∈ ts := List.getElem_mem hi
  have hp : Rereads ts ts[i] batch[i] := hall.get hi hi'
  refine ⟨hp.name, ?_⟩
  show List.Forall₂ _ ts[i].columns (batch[i].table.columns.map (resolveColumn batch batch[i]))
  rw [hp.columns, List.map_map, List.forall₂_map_right_iff, List.forall₂_same]
  intro c hc
  have hsame := resolveColumn_eq batch batch[i] (detached c)
  refine ⟨?_, ?_, ?_, ?_, ?_, ?_, fun d hd => ?_, resolveColumn_of_none h hall hp hc⟩
  · rw [Function.comp_apply, hsame]; rfl
  · rw [Function.comp_apply, hsame]; rfl
  · rw [Function.comp_apply, hsame]; rfl
  · rw [Function.comp_apply, hsame]; rfl
  · rw [Function.comp_apply, hsame]; rfl
  · rw [Function.comp_apply, hsame]; rfl
  · obtain ⟨j, q, hj, hq, hres⟩ := resolveColumn_of_target h hall ht hp hc hd
    rw [Function.comp_apply, hres]
    exact ⟨rfl, j, resolveTable batch q, hj, by rw [List.getElem?_map, hq]; rfl, rfl⟩

/-- Faithful SQL is read back without loss. -/
theorem read_generate (h : Printable ts) (hf : ∀ t ∈ ts, Faithful ts t)
    (hsource : source (generate ts) = (generate ts).toList) (ids : TableId.Supply) :
    ∃ r, read ids (generate ts) = .ok r ∧ r.skipped = [] ∧ Restored ts r.tables := by
  obtain ⟨hstatements, hskipped⟩ := h.statements_generate
  obtain ⟨batch, hbatch, hall⟩ := readStatements_printed h hf (fun _ ht => ht) ids
  refine ⟨⟨batch.map (resolveTable batch), [], batch.flatMap (unresolvedIn batch)⟩, ?_, rfl,
    restored_resolveTable h hall⟩
  have hbatch : readStatements ids (printed ts) = .ok (batch, []) := hbatch
  rw [read_eq, hsource, hstatements, hskipped, hbatch]
  rfl

theorem length?_of_eq {c c' : Column String} (h : c'.typeLength = c.length?) :
    c'.length? = c.length? := by
  rw [Column.length?, h, Column.length?, Option.filter_filter]
  simp

section SameText

variable {us : List (Table String)} {t' : Table String} {c c' : Column String}

theorem RestoredColumn.columnClause_eq (h : RestoredColumn ts us c c') :
    columnClause c' = columnClause c := by
  have hbase : c'.baseType = c.baseType := by rw [Column.baseType, h.type, Column.baseType]
  rw [columnClause, columnClause, typeClause, typeClause, h.name, h.nullable, h.unique,
    h.primaryKey, length?_of_eq h.typeLength, hbase]

theorem RestoredTable.columnNames_eq (h : RestoredTable ts us t t') :
    t'.columnNames = t.columnNames := by
  exact (forall₂_eq_iff_map.1 (h.columns.imp fun _ _ hc => hc.name.symm)).symm

theorem RestoredTable.primaryKey_eq (h : RestoredTable ts us t t') : t'.primaryKey = t.primaryKey :=
  Table.primaryKey_congr (h.columns.imp fun _ _ hc => ⟨hc.name, hc.primaryKey⟩)

/-- A reference that resolves leads to a table of the same name. -/
theorem Restored.foreignKeyClause?_eq (h : Restored ts us) (hids : (us.map (·.id)).Nodup)
    (hset : ∀ u ∈ us, u.id ≠ "") (hc : RestoredColumn ts us c c')
    (hcol : ∀ d, c.target? ts = some d → c.references.columnName ≠ "") :
    foreignKeyClause? us c' = foreignKeyClause? ts c := by
  unfold foreignKeyClause?
  cases hd : c.target? ts with
  | none =>
    rw [Column.target?_of_unset (hc.unresolved hd)]
    rfl
  | some d =>
    obtain ⟨hf, i, d', hi, hi', hr⟩ := hc.resolved d hd
    obtain ⟨hlt, rfl⟩ := List.getElem?_eq_some_iff.1 hi
    obtain ⟨hlt', rfl⟩ := List.getElem?_eq_some_iff.1 hi'
    have hrestored : RestoredTable ts us ts[i] us[i] := h.get hlt hlt'
    have hmem : us[i] ∈ us := List.getElem_mem hlt'
    have htarget : c'.target? us = some us[i] := by
      refine Column.target?_of_reference hids hf hmem (by rw [hr]) ?_ ?_
      · rw [hr, hrestored.columnNames_eq]
        exact (Column.target?_eq_some hd).2.2.2
      · rw [hr]
        simp [Reference.isSet, hset _ hmem, hcol _ hd]
    rw [htarget]
    simp only [Option.map_some, Label.shown_string, hc.name, hrestored.name, hr]

/-- A schema that restores another has the same SQL. -/
theorem Restored.generate_eq (h : Restored ts us) (hp : Printable ts) (hids : (us.map (·.id)).Nodup)
    (hset : ∀ u ∈ us, u.id ≠ "") : generate us = generate ts := by
  have hsame : List.Forall₂ (fun t t' => createTable ts t = createTable us t') ts us := by
    refine (forall₂_with_mem h).imp fun t t' ⟨ht, hrest⟩ => ?_
    have hcolumns : t.columns.map columnClause = t'.columns.map columnClause :=
      forall₂_eq_iff_map.1 (hrest.columns.imp fun _ _ hc => hc.columnClause_eq.symm)
    have hkeys : primaryKeyClauses t = primaryKeyClauses t' := by
      rw [primaryKeyClauses, primaryKeyClauses, hrest.primaryKey_eq]
    have hlinks : t.columns.map (foreignKeyClause? ts) = t'.columns.map (foreignKeyClause? us) := by
      refine forall₂_eq_iff_map.1 ((forall₂_with_mem hrest.columns).imp fun c c' ⟨hc, hrc⟩ => ?_)
      refine (h.foreignKeyClause?_eq hids hset hrc fun d hd he => ?_).symm
      have hword := (hp.targets t ht c hc d hd).2
      rw [he] at hword
      exact hword.1 rfl
    have hlinks := congrArg (List.filterMap id) hlinks
    rw [List.filterMap_map, List.filterMap_map, Function.id_comp, Function.id_comp] at hlinks
    unfold createTable clauses
    rw [hcolumns, hkeys, hlinks, Label.shown_string, Label.shown_string, hrest.name]
  rw [generate, generate, forall₂_eq_iff_map.1 hsame]

end SameText

end SchemaDesign.Export.Sql
