import Mathlib.Data.List.Perm.Basic
import SchemaDesign.Proofs.Ddl.ForeignKey
import SchemaDesign.Proofs.Export.Renaming

/-! Resolving the foreign keys of a batch. Where a column leads is told by the pieces of its table and the
names of the tables alone, so that the order of statements with different names makes no difference but to
the ids. -/
namespace SchemaDesign.Ddl

/-- The id that the table of an id has among others, where it is found under its name. -/
def idAmong (ts us : List (Table String)) (id : String) : String :=
  ((ts.find? (·.id == id)).bind fun t => us.find? (·.name == t.name)).elim "" (·.id)

def Pending.withId (id : String) (p : Pending) : Pending := { p with table := { p.table with id } }

/-- A pending table that was read under some id, read under another one. -/
theorem Pending.ReadFrom.eq_withId {p q : Pending} {id id' : String} {st : List Char × List Char}
    {b b' : Body} (hp : p.ReadFrom id st b) (hq : q.ReadFrom id' st b') : q = p.withId id' := by
  obtain rfl : b = b' := Except.ok.inj (hp.pieces.symm.trans hq.pieces)
  obtain ⟨t, fks⟩ := p
  obtain ⟨u, fks'⟩ := q
  obtain rfl : t = _ := hp.table
  obtain rfl : u = _ := hq.table
  obtain rfl : fks = b.foreignKeys := hp.foreignKeys
  obtain rfl : fks' = b.foreignKeys := hq.foreignKeys
  rfl

/-! The same pending tables under other ids -/

section Renumbered

variable {rename : String → String} {batch : List Pending}

/-- Every table with its id renamed. -/
def renumber (rename : String → String) (batch : List Pending) : List Pending :=
  batch.map fun p => p.withId (rename p.table.id)

theorem resolve?_renumber (rename : String → String) (batch : List Pending) (target : Target) :
    resolve? (renumber rename batch) target =
      (resolve? batch target).map fun r => ⟨rename r.tableId, r.columnName⟩ := by
  have hfind : (renumber rename batch).find? (·.table.name == target.table) =
      (batch.find? (·.table.name == target.table)).map fun p => p.withId (rename p.table.id) := by
    rw [renumber, List.find?_map]
    rfl
  rw [resolve?, hfind, resolve?]
  cases batch.find? (·.table.name == target.table) with
  | none => rfl
  | some p =>
    have hcolumn : (p.withId (rename p.table.id)).table.column? target.column =
        p.table.column? target.column := rfl
    simp only [Option.map_some, Option.bind_some, hcolumn]
    split <;> rfl

theorem resolveColumn_renumber (hempty : rename "" = "") {c : Column String}
    (hplain : c.references = Reference.unset) (p : Pending) (id : String) :
    resolveColumn (renumber rename batch) (p.withId id) c =
      (resolveColumn batch p c).renameId rename := by
  have hunset : (⟨rename Reference.unset.tableId, Reference.unset.columnName⟩ : Reference String) =
      Reference.unset := by
    change (⟨rename "", ""⟩ : Reference String) = ⟨"", ""⟩
    rw [hempty]
  have hkeys : (p.withId id).foreignKeys = p.foreignKeys := rfl
  unfold resolveColumn
  rw [hkeys]
  cases Assoc.get? c.name p.foreignKeys with
  | none =>
    change c = c.renameId rename
    rw [Column.renameId, hplain, hunset, ← hplain]
  | some target =>
    simp only [resolve?_renumber, Column.renameId]
    cases resolve? batch target with
    | none => simp only [Option.map_none, Option.getD_none, hunset]
    | some r => rfl

/-- Under other ids every column leads to the same table. -/
theorem resolveTable_renumber (hempty : rename "" = "") {p : Pending}
    (hplain : ∀ c ∈ p.table.columns, c.references = Reference.unset) :
    resolveTable (renumber rename batch) (p.withId (rename p.table.id)) =
      (resolveTable batch p).renameId rename := by
  have hcolumns : p.table.columns.map
        (resolveColumn (renumber rename batch) (p.withId (rename p.table.id))) =
      (p.table.columns.map (resolveColumn batch p)).map (Column.renameId rename) := by
    rw [List.map_map]
    apply List.map_congr_left
    intro c hc
    exact resolveColumn_renumber hempty (hplain c hc) p _
  simp only [resolveTable, Table.renameId, ← hcolumns]
  rfl

theorem map_resolveTable_renumber (hempty : rename "" = "")
    (hplain : ∀ p ∈ batch, ∀ c ∈ p.table.columns, c.references = Reference.unset) :
    (renumber rename batch).map (resolveTable (renumber rename batch)) =
      (batch.map (resolveTable batch)).map (Table.renameId rename) := by
  have hleft : (renumber rename batch).map (resolveTable (renumber rename batch)) =
      batch.map fun p => resolveTable (renumber rename batch) (p.withId (rename p.table.id)) :=
    List.map_map
  rw [hleft, List.map_map]
  apply List.map_congr_left
  intro p hp
  exact resolveTable_renumber hempty (hplain p hp)

/-- Tables that correspond but for their ids are renumbered as their names tell. -/
theorem eq_renumber {qs : List Pending}
    (hpairs : List.Forall₂ (fun p q => q = p.withId q.table.id) batch qs)
    (hid : ∀ p ∈ batch, ∀ q ∈ qs, q.table.name = p.table.name → rename p.table.id = q.table.id) :
    qs = renumber rename batch := by
  rw [renumber, ← List.forall₂_eq_eq_eq, List.forall₂_map_right_iff]
  apply List.Forall₂.flip
  refine (forall₂_with_both_mem hpairs).imp ?_
  rintro p q ⟨hp, hq, hsame⟩
  have hname : q.table.name = p.table.name := by
    rw [hsame]
    rfl
  rw [flip, hid p hp q hq hname]
  exact hsame

end Renumbered

/-! Batches in another order -/

section Reordered

variable {ps qs : List Pending}

theorem resolve?_perm (hn : (ps.map (·.table.name)).Nodup) (h : qs.Perm ps) (target : Target) :
    resolve? qs target = resolve? ps target := by
  rw [resolve?, find?_key_perm hn h, resolve?]

theorem resolveTable_perm (hn : (ps.map (·.table.name)).Nodup) (h : qs.Perm ps) (p : Pending) :
    resolveTable qs p = resolveTable ps p := by
  have hcolumn : resolveColumn qs p = resolveColumn ps p := by
    funext c
    simp only [resolveColumn, resolve?_perm hn h]
  rw [resolveTable, hcolumn, resolveTable]

theorem map_resolveTable_perm (hn : (ps.map (·.table.name)).Nodup) (h : qs.Perm ps) :
    (qs.map (resolveTable qs)).Perm (ps.map (resolveTable ps)) := by
  have hresolve : resolveTable qs = resolveTable ps := funext (resolveTable_perm hn h)
  rw [hresolve]
  exact h.map _

theorem idAmong_empty {ts us : List (Table String)} (h : ∀ t ∈ ts, t.id ≠ "") :
    idAmong ts us "" = "" := by
  have hnone : ts.find? (·.id == "") = none := by simpa using h
  rw [idAmong, hnone]
  rfl

theorem idAmong_eq {ts us : List (Table String)} (hid : (ts.map (·.id)).Nodup)
    (hname : (us.map (·.name)).Nodup) {t u : Table String} (ht : t ∈ ts) (hu : u ∈ us)
    (h : u.name = t.name) : idAmong ts us t.id = u.id := by
  rw [idAmong, (find?_key_eq_some hid).2 ⟨ht, rfl⟩, Option.bind_some,
    (find?_key_eq_some hname).2 ⟨hu, h⟩]
  rfl

end Reordered

/-! Whole texts -/

section Texts

variable {ids ids' : TableId.Supply} {sts sts' : List (List Char × List Char)} {ps qs : List Pending}
  {skipped skipped' : List Fragment}

/-- Statements in another order give the same pending tables in another order, under other ids. -/
theorem readStatements_perm (h : readStatements ids sts = .ok (ps, skipped))
    (h' : readStatements ids' sts' = .ok (qs, skipped')) (hperm : sts'.Perm sts) :
    ∃ ws, ws.Perm ps ∧ List.Forall₂ (fun w q => q = w.withId q.table.id) ws qs := by
  obtain ⟨-, hall⟩ := readStatements_eq_ok h
  obtain ⟨-, hall'⟩ := readStatements_eq_ok h'
  obtain ⟨ws, hws, hperm⟩ := List.perm_comp_forall₂ hperm hall
  refine ⟨ws, hperm, (forall₂_join hws hall').imp ?_⟩
  rintro w q ⟨st, ⟨b, hw⟩, b', hq⟩
  exact hw.eq_withId hq

theorem map_name_readStatements (h : readStatements ids sts = .ok (ps, skipped)) :
    ps.map (·.table.name) = sts.map (String.ofList ·.1) := by
  apply Eq.symm
  apply forall₂_eq_iff_map.1
  refine (readStatements_eq_ok h).2.imp ?_
  rintro st p ⟨b, hread⟩
  rw [hread.table]

theorem nodup_map_name (h : readStatements ids sts = .ok (ps, skipped))
    (hn : (sts.map (·.1)).Nodup) : (ps.map (·.table.name)).Nodup := by
  rw [map_name_readStatements h]
  have hmap : sts.map (String.ofList ·.1) = (sts.map (·.1)).map String.ofList := by
    rw [List.map_map]
    rfl
  rw [hmap]
  exact hn.map fun _ _ => String.ofList_inj.1

end Texts

section Reports

variable {ids ids' : TableId.Supply} {text text' : String} {r r' : Report}

theorem tables_perm (h : read ids text = .ok r) (h' : read ids' text' = .ok r')
    (hn : ((statements (source text)).map (·.1)).Nodup)
    (hperm : (statements (source text')).Perm (statements (source text))) :
    r'.tables.Perm (r.tables.map (Table.renameId (idAmong r.tables r'.tables))) := by
  obtain ⟨ps, skipped, hps, hr, -⟩ := read_eq_ok h
  obtain ⟨qs, skipped', hqs, hr', -⟩ := read_eq_ok h'
  obtain ⟨ws, hws, hpairs⟩ := readStatements_perm hps hqs hperm
  have hnames := nodup_map_name hps hn
  have hempty : idAmong r.tables r'.tables "" = "" :=
    idAmong_empty fun t ht => read_id_ne_empty h ht
  have hnames' : (r'.tables.map (·.name)).Nodup := by
    rw [hr', List.map_map]
    exact nodup_map_name hqs ((hperm.map _).nodup_iff.2 hn)
  -- a table is found under its name among the others, and its id is what its own becomes
  have hid : ∀ w ∈ ws, ∀ q ∈ qs, q.table.name = w.table.name →
      idAmong r.tables r'.tables w.table.id = q.table.id := by
    intro w hw q hq hname
    refine idAmong_eq (t := resolveTable ps w) (u := resolveTable qs q) (read_ids_nodup h) hnames'
      ?_ ?_ hname
    · rw [hr]
      exact List.mem_map_of_mem (hws.subset hw)
    · rw [hr']
      exact List.mem_map_of_mem hq
  have hplain : ∀ w ∈ ws, ∀ c ∈ w.table.columns, c.references = Reference.unset := by
    intro w hw c hc
    obtain ⟨st, -, b, hread⟩ := exists_readFrom (readStatements_eq_ok hps).2 (hws.subset hw)
    exact (hread.plain c hc).2
  have htables : r'.tables =
      (ws.map (resolveTable ws)).map (Table.renameId (idAmong r.tables r'.tables)) := by
    rw [← map_resolveTable_renumber hempty hplain, ← eq_renumber hpairs hid]
    exact hr'
  have hrenamed := (map_resolveTable_perm hnames hws).map (Table.renameId (idAmong r.tables r'.tables))
  rw [← htables, ← hr] at hrenamed
  exact hrenamed

/-- Where the foreign keys of a text lead. Each column has the one that the pieces of its table give it,
and it leads to a column of the first table of its target's name, wherever that stands, or nowhere. So
statements with different names may change places: the tables do, and but for the ids that they take they
are the same, with every reference leading where it led. -/
theorem read_foreignKeys (h : read ids text = .ok r) :
    List.Forall₂ (fun st t => t.name = String.ofList st.1 ∧
        t.columnNames = (firsts (definitions (pieces st.2))).map (String.ofList ·.name) ∧
        ∀ c ∈ t.columns, Led r.tables (pieces st.2) c)
      (statements (source text)) r.tables ∧
    (((statements (source text)).map (·.1)).Nodup → ∀ ids' text',
      (statements (source text')).Perm (statements (source text)) →
        ∃ r', read ids' text' = .ok r' ∧
          r'.tables.Perm (r.tables.map (Table.renameId (idAmong r.tables r'.tables)))) := by
  constructor
  · obtain ⟨batch, skipped, hb, hr, -⟩ := read_eq_ok h
    rw [hr, List.forall₂_map_right_iff]
    refine (readStatements_eq_ok hb).2.imp ?_
    rintro st q ⟨b, hread⟩
    refine ⟨by rw [resolveTable_name, hread.table], columnNames_resolveTable hread batch, ?_⟩
    intro c hc
    obtain ⟨d, hd, rfl⟩ := List.mem_map.1 hc
    exact led_resolveColumn hread batch hd
  · intro hn ids' text' hperm
    have hreadable : Readable text' := by
      intro st hst
      exact (read_eq_ok_iff ids).1 ⟨r, h⟩ st (hperm.subset hst)
    obtain ⟨r', h'⟩ := (read_eq_ok_iff ids').2 hreadable
    exact ⟨r', h', tables_perm h h' hn hperm⟩

end Reports

/-- A body with a reference to itself in place of one to the table behind it, which also is there. -/
def ringBody : List Char :=
  "i INT REFERENCES b(i), u INT REFERENCES b(i), FOREIGN KEY (u) REFERENCES a(i)".toList

/-- A body with a reference to the table before it, and one to a table that is missing. -/
def backBody : List Char := "i INT REFERENCES a(u), x INT REFERENCES c(i)".toList

def ringStatement : List Char := "CREATE TABLE a (".toList ++ ringBody ++ [')', ';']

def backStatement : List Char := "CREATE TABLE b (".toList ++ backBody ++ [')', ';']

def selfColumn : Column String :=
  ⟨"u", "int", none, true, false, false, true, ⟨TableId.ofNumber 1, "i"⟩⟩

def ringTables : List (Table String) :=
  [⟨TableId.ofNumber 1, "a", "",
    [⟨"i", "int", none, true, false, false, true, ⟨TableId.ofNumber 2, "i"⟩⟩, selfColumn]⟩,
   ⟨TableId.ofNumber 2, "b", "",
    [⟨"i", "int", none, true, false, false, true, ⟨TableId.ofNumber 1, "u"⟩⟩,
     ⟨"x", "int", none, true, false, false, true, Reference.unset⟩]⟩]

theorem read_foreignKeys_ringTables :
    Led ringTables (pieces ringBody) selfColumn ∧
      ∃ r', read (TableId.Supply.counter.drop 6) (String.ofList (backStatement ++ ringStatement)) = .ok r' ∧
        r'.tables.Perm (ringTables.map (Table.renameId (idAmong ringTables r'.tables))) := by
  have hread : read .counter (String.ofList (ringStatement ++ backStatement)) =
      .ok ⟨ringTables, [], [⟨"b", "x", ⟨"c", "i"⟩⟩]⟩ := by
    rw [read_eq, source, String.toList_ofList]
    decide +kernel
  have hstatements : statements (source (String.ofList (ringStatement ++ backStatement))) =
      [("a".toList, ringBody), ("b".toList, backBody)] := by
    rw [source, String.toList_ofList]
    decide +kernel
  have hswapped : statements (source (String.ofList (backStatement ++ ringStatement))) =
      [("b".toList, backBody), ("a".toList, ringBody)] := by
    rw [source, String.toList_ofList]
    decide +kernel
  obtain ⟨hled, hreordered⟩ := read_foreignKeys hread
  rw [hstatements] at hled hreordered
  constructor
  · obtain ⟨-, -, hcolumns⟩ := (List.forall₂_cons.1 hled).1
    exact hcolumns selfColumn (List.mem_cons_of_mem _ List.mem_cons_self)
  · apply hreordered (by decide +kernel)
    rw [hswapped]
    exact List.Perm.swap _ _ _

end SchemaDesign.Ddl
