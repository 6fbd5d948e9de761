import SchemaDesign.Proofs.Sql.Loss
import SchemaDesign.Proofs.Sql.Opening

/-! Which schemas that are read from a text have SQL that is read back to the same SQL. Where a name
of a key clause closes a comment, the table loses the column that opens it. -/
namespace SchemaDesign.Export.Sql
open Ddl Text

namespace Opening

variable {ts : List (Table String)} (o : Opening ts) {rest : List Char}

theorem source_eq (h : Printable ts) (hcalm : Calm (columnNames ts))
    (hrest : afterBlock? o.after = some rest) :
    source (generate ts) = o.before ++ ' ' :: withoutBlocks rest := by
  have hblocks : withoutBlocks (generate ts).toList = o.before ++ ' ' :: withoutBlocks rest := by
    rw [o.toList_generate, withoutBlocks_append_opening (o.before_quiet h) hrest]
  have hdashes : ¬ Has '-' '-' (withoutBlocks (generate ts).toList) := fun hd =>
    not_has_dashes h hcalm (has_withoutBlocks (by decide) (by decide) hd)
  rw [source, withoutComments, withoutLineComments_of_not_has hdashes, hblocks]

theorem bodyBefore_quiet (h : Printable ts) : ¬ Has '/' '*' o.bodyBefore := by
  intro hopen
  refine o.before_quiet h (Has.append_right ?_ ['/'])
  have hbefore : o.before = statementsText ts o.tablesBefore ++
      (opening ++ (o.table.name.toList ++ [' ', '('] ++ o.bodyBefore)) := by
    simp only [before, List.append_assoc, List.cons_append, List.nil_append]
  rw [hbefore]
  exact ((hopen.append_left _).append_left _).append_left _

theorem bodyBefore_closes (h : Printable ts) {u : List Char} (hu : ∀ c ∈ u, isFlat c = true) :
    depthAfter 0 (o.bodyBefore ++ ' ' :: u) = some 0 := by
  have hlines : depthAfter 0 (layBefore (o.columnsBefore.map columnLine)) = some 0 := by
    refine closes_layBefore fun l hl => ?_
    obtain ⟨c, hc, rfl⟩ := List.mem_map.1 hl
    exact line_columnLine (h.columns _ o.table_mem c (o.mem_columnsBefore hc))
  have hflat : ∀ c ∈ indent ++ o.head ++ ' ' :: u, isFlat c = true := by
    rw [List.forall_mem_append, List.forall_mem_append, List.forall_mem_cons]
    refine ⟨⟨by decide, fun c hc => ?_⟩, by decide, hu⟩
    refine h.flat_name o.table_mem o.column_mem c ?_
    rw [o.name_eq]
    exact List.mem_append_left _ hc
  have hbody : o.bodyBefore ++ ' ' :: u = ['\n'] ++ (layBefore (o.columnsBefore.map columnLine) ++
      (indent ++ o.head ++ ' ' :: u)) := by
    simp only [bodyBefore, List.append_assoc, List.cons_append, List.nil_append]
  rw [hbody, depthAfter_flat_append (by decide), depthAfter_append, hlines]
  exact (balanced_flat hflat).closes

/-- Where a comment is closed, the statement in which it begins ends, and no comment begins in what
is left of its body before a blank. -/
theorem statements_closed (h : Printable ts) (hcalm : Calm (columnNames ts))
    (hrest : afterBlock? o.after = some rest) :
    ∃ body others, ¬ Opens body ∧ statements (source (generate ts)) =
      (o.tablesBefore.map fun t => (t.name.toList, bodyChars ts t)) ++
        (o.table.name.toList, body) :: others := by
  obtain ⟨n, t, rfl, hn, ht⟩ := (o.shut_after h hcalm).afterBlock hrest
  obtain ⟨u, others, hu, hflat, hopens⟩ := withoutBlocks_name hn ht
  refine ⟨o.bodyBefore ++ ' ' :: u, statements others,
    not_opens_append_cons (by decide) (o.bodyBefore_quiet h) hopens, ?_⟩
  have hwell : WellFormed (o.tablesBefore.map fun t => (t.name.toList, bodyChars ts t)) := by
    intro st hst
    obtain ⟨t, ht, rfl⟩ := List.mem_map.1 hst
    exact h.wellFormed _ (List.mem_map_of_mem (o.mem_before ht))
  rw [o.source_eq h hcalm hrest, hu, ← statements_amid hwell (h.names _ o.table_mem)
    (o.bodyBefore_closes h hflat)]
  simp only [before, statementsText, List.append_assoc, List.cons_append]

/-- The SQL of what is read is not the same then. -/
theorem generate_ne (h : Printable ts) (hcalm : Calm (columnNames ts))
    (hrest : afterBlock? o.after = some rest) {ids : TableId.Supply} {r : Report}
    (hr : read ids (generate ts) = .ok r) : generate r.tables ≠ generate ts := by
  intro he
  have hu := printable_read hr
  have hlines := h.lines_eq hu he
  obtain ⟨batch, skipped, hb, htables, -⟩ := read_eq_ok hr
  obtain ⟨-, hall⟩ := readStatements_eq_ok hb
  obtain ⟨body, others, hopens, hstatements⟩ := o.statements_closed h hcalm hrest
  rw [hstatements] at hall
  obtain ⟨p, hp, b, hrf⟩ := exists_of_forall₂_append_cons hall
  have hlines : List.Forall₂ (fun t t' => t'.name = t.name ∧ lines r.tables t' = lines ts t)
      (o.tablesBefore ++ o.table :: o.tablesAfter) r.tables := o.tables_eq ▸ hlines
  obtain ⟨t, ht, -, hsame⟩ := exists_of_forall₂_append_cons hlines
  have hmem := List.mem_of_getElem? ht
  rw [htables, List.getElem?_map] at ht
  rw [List.length_map] at hp
  rw [hp] at ht
  obtain rfl : resolveTable batch p = t := Option.some.inj ht
  have hname : o.column.name.toList ∈ (resolveTable batch p).columns.map (·.name.toList) := by
    rw [h.names_eq o.table_mem hu hmem hsame]
    exact List.mem_map_of_mem o.column_mem
  rw [hrf.names batch] at hname
  obtain ⟨c, hc, hcn⟩ := List.mem_map.1 hname
  exact hopens (opens_ofPieces hrf.pieces hc (hcn ▸ o.has_column))

end Opening

variable {ids : TableId.Supply} {text : String} {r : Report}

/-- SQL that comes back unchanged has no comments. -/
theorem uncommented_of_generate_eq (h : read ids text = .ok r) {again : TableId.Supply} {r' : Report}
    (hr : read again (generate r.tables) = .ok r') (he : generate r'.tables = generate r.tables) :
    Uncommented (generate r.tables).toList := by
  have hprintable := printable_read h
  refine ⟨?_, not_has_dashes hprintable (calm_read h)⟩
  by_cases hopen : ∃ t ∈ r.tables, ∃ c ∈ t.columns, Has '/' '*' c.name.toList
  · obtain ⟨o⟩ := exists_opening hopen
    cases hafter : afterBlock? o.after with
    | none =>
      rw [o.toList_generate]
      exact quiet_append_opening (o.before_quiet hprintable) (afterBlock?_eq_none.1 hafter)
    | some rest => exact absurd he (o.generate_ne hprintable (calm_read h) hafter hr)
  · exact quiet_generate hprintable hopen

theorem faithful_of_reread (h : read ids text = .ok r) {again : TableId.Supply} {r' : Report}
    (hr : read again (generate r.tables) = .ok r') (he : generate r'.tables = generate r.tables) :
    ∀ t ∈ r.tables, Faithful r.tables t :=
  have hsource := (uncommented_of_generate_eq h hr he).withoutComments_eq
  faithful_of_generate_eq (printable_read h) hsource hr he

/-- Whatever text a schema is read from, its SQL comes back unchanged exactly if it is faithful. -/
theorem fixedPoint_iff (h : read ids text = .ok r) (again : TableId.Supply) :
    (∃ r', read again (generate r.tables) = .ok r' ∧ generate r'.tables = generate r.tables) ↔
      ∀ t ∈ r.tables, Faithful r.tables t := by
  constructor
  · rintro ⟨r', hr, he⟩
    exact faithful_of_reread h hr he
  · intro hf
    have hprintable := printable_read h
    have hworded : ∀ t ∈ r.tables, Worded r.tables t := fun t ht => (hf t ht).toWorded
    have hsource := (uncommented_generate hprintable hworded (calm_read h)).withoutComments_eq
    obtain ⟨r', hr, -, hrestored⟩ := read_generate hprintable hf hsource again
    have hset : ∀ u ∈ r'.tables, u.id ≠ "" := fun u hu => read_id_ne_empty hr hu
    exact ⟨r', hr, hrestored.generate_eq hprintable (read_ids_nodup hr) hset⟩

/-- A table whose key is referred to by the column beside it. -/
def selfTable : Table String :=
  ⟨TableId.ofNumber 1, "t", "",
    [⟨"id", "int", none, false, true, true, false, Reference.unset⟩,
     ⟨"parent", "int", none, true, false, false, true, ⟨TableId.ofNumber 1, "id"⟩⟩]⟩

theorem fixedPoint_selfTable :
    read .counter "CREATE TABLE `t` (id INT PRIMARY KEY, parent int references t (id));" =
        .ok ⟨[selfTable], [], []⟩ ∧
      ∃ r', read .counter (generate [selfTable]) = .ok r' ∧ generate r'.tables = generate [selfTable] := by
  have hread : read .counter "CREATE TABLE `t` (id INT PRIMARY KEY, parent int references t (id));" =
      .ok ⟨[selfTable], [], []⟩ := by decide +kernel
  exact ⟨hread, (fixedPoint_iff hread .counter).2 (by decide +kernel)⟩

def dashedKey : Table String :=
  ⟨TableId.ofNumber 1, "t", "", [⟨"a-b", "int", none, false, true, true, false, Reference.unset⟩]⟩

/-- A key whose name is no word is lost with its clause. -/
theorem not_fixedPoint_dashedKey :
    read .counter "CREATE TABLE t (a-b INT PRIMARY KEY)" = .ok ⟨[dashedKey], [], []⟩ ∧
      ¬ ∃ r', read .counter (generate [dashedKey]) = .ok r' ∧ generate r'.tables = generate [dashedKey] := by
  have hread : read .counter "CREATE TABLE t (a-b INT PRIMARY KEY)" = .ok ⟨[dashedKey], [], []⟩ := by
    decide +kernel
  refine ⟨hread, fun ⟨r', hr, he⟩ => ?_⟩
  have hfaithful := faithful_of_reread hread hr he dashedKey List.mem_cons_self
  exact absurd hfaithful (by decide +kernel)

end SchemaDesign.Export.Sql
