import SchemaDesign.Proofs.Sql.Comment

/-! The first place in the SQL of a schema where a comment begins, and what stands before and behind
it. -/
namespace SchemaDesign.Export.Sql
open Ddl Text

variable {ts : List (Table String)} {P : List Char → Prop}

/-- The first column in whose name a comment begins. -/
structure Opening (ts : List (Table String)) where
  tablesBefore : List (Table String)
  table : Table String
  tablesAfter : List (Table String)
  columnsBefore : List (Column String)
  column : Column String
  columnsAfter : List (Column String)
  head : List Char
  tail : List Char
  tables_eq : ts = tablesBefore ++ table :: tablesAfter
  columns_eq : table.columns = columnsBefore ++ column :: columnsAfter
  name_eq : column.name.toList = head ++ '/' :: '*' :: tail
  tables_quiet : ∀ t ∈ tablesBefore, ∀ c ∈ t.columns, ¬ Has '/' '*' c.name.toList
  columns_quiet : ∀ c ∈ columnsBefore, ¬ Has '/' '*' c.name.toList
  head_quiet : ¬ Has '/' '*' (head ++ ['/'])

theorem exists_opening (h : ∃ t ∈ ts, ∃ c ∈ t.columns, Has '/' '*' c.name.toList) :
    Nonempty (Opening ts) := by
  obtain ⟨us, t, vs, rfl, ht, hus⟩ := exists_first h
  obtain ⟨cs, c, ds, hcs, hc, hquiet⟩ := exists_first ht
  obtain ⟨a, b, hname, hfirst⟩ := hc.first (by decide)
  exact ⟨us, t, vs, cs, c, ds, a, b, rfl, hcs, hname,
    fun u hu c hc hopen => hus u hu ⟨c, hc, hopen⟩, hquiet, hfirst⟩

namespace Opening

variable (o : Opening ts)

def linesAfter : List (List Char) :=
  o.columnsAfter.map columnLine ++ (keyLines o.table ++ linkLines ts o.table)

def bodyBefore : List Char := '\n' :: (layBefore (o.columnsBefore.map columnLine) ++ (indent ++ o.head))

def bodyAfter : List Char :=
  o.tail ++ ' ' :: (o.column.baseType.toList ++ (columnTail o.column ++ (layAfter o.linesAfter ++ ['\n'])))

/-- The text before the opening. -/
def before : List Char :=
  statementsText ts o.tablesBefore ++ (opening ++ (o.table.name.toList ++ ' ' :: '(' :: o.bodyBefore))

/-- The text behind the opening. -/
def after : List Char := o.bodyAfter ++ ')' :: (ending ++ statementsText ts o.tablesAfter)

theorem table_mem : o.table ∈ ts := by
  have hmem : o.table ∈ o.tablesBefore ++ o.table :: o.tablesAfter :=
    List.mem_append_right _ List.mem_cons_self
  rwa [← o.tables_eq] at hmem

theorem column_mem : o.column ∈ o.table.columns := by
  rw [o.columns_eq]
  exact List.mem_append_right _ List.mem_cons_self

theorem mem_before {t : Table String} (ht : t ∈ o.tablesBefore) : t ∈ ts :=
  o.tables_eq ▸ List.mem_append_left _ ht

theorem mem_after {t : Table String} (ht : t ∈ o.tablesAfter) : t ∈ ts :=
  o.tables_eq ▸ List.mem_append_right _ (List.mem_cons_of_mem _ ht)

theorem mem_columnsBefore {c : Column String} (hc : c ∈ o.columnsBefore) : c ∈ o.table.columns :=
  o.columns_eq ▸ List.mem_append_left _ hc

theorem mem_columnsAfter {c : Column String} (hc : c ∈ o.columnsAfter) : c ∈ o.table.columns :=
  o.columns_eq ▸ List.mem_append_right _ (List.mem_cons_of_mem _ hc)

theorem has_column : Has '/' '*' o.column.name.toList := ⟨o.head, o.tail, o.name_eq⟩

theorem bodyChars_eq : bodyChars ts o.table = o.bodyBefore ++ '/' :: '*' :: o.bodyAfter := by
  have hlines : lines ts o.table =
      o.columnsBefore.map columnLine ++ columnLine o.column :: o.linesAfter := by
    rw [lines_eq_append, o.columns_eq, List.map_append, List.map_cons, List.append_assoc,
      List.cons_append]
    rfl
  rw [bodyChars, hlines, layLines_append_cons, columnLine, o.name_eq]
  simp only [bodyBefore, bodyAfter, List.append_assoc, List.cons_append]

theorem toList_generate : (generate ts).toList = o.before ++ '/' :: '*' :: o.after := by
  have hprinted : (printed ts).flatMap statementText = statementsText ts o.tablesBefore ++
      (statementText (o.table.name.toList, bodyChars ts o.table) ++ statementsText ts o.tablesAfter) := by
    unfold printed statementsText
    nth_rewrite 2 [o.tables_eq]
    rw [List.map_append, List.flatMap_append, List.map_cons, List.flatMap_cons]
  rw [Sql.toList_generate, hprinted, statementText_append, o.bodyChars_eq]
  simp only [before, after, List.append_assoc, List.cons_append]

theorem before_quiet (h : Printable ts) : ¬ Has '/' '*' (o.before ++ ['/']) := by
  have hP : Blind fun s => ¬ Has '/' '*' s := blind_not_has (by decide) (by decide)
  have htables : Keeps (fun s => ¬ Has '/' '*' s) (statementsText ts o.tablesBefore) :=
    keeps_statementsText hP h (fun t ht => o.mem_before ht) fun t ht =>
      written_of_columns fun c hc ch hch =>
        not_has_append_singleton (isInert_spec hch).1 (isInert_spec hch).2.1 (o.tables_quiet t ht c hc)
  have hname : Keeps (fun s => ¬ Has '/' '*' s) (opening ++ o.table.name.toList ++ [' ', '(', '\n']) :=
    hP.keeps (by
      rw [List.forall_mem_append, List.forall_mem_append]
      exact ⟨⟨by decide, Word.inert (h.names _ o.table_mem)⟩, by decide⟩)
  have hlines : Keeps (fun s => ¬ Has '/' '*' s) (layBefore (o.columnsBefore.map columnLine)) := by
    refine keeps_layBefore hP fun l hl => ?_
    obtain ⟨c, hc, rfl⟩ := List.mem_map.1 hl
    exact keeps_columnLine hP (h.columns _ o.table_mem c (o.mem_columnsBefore hc))
      (not_has_append_singleton (by decide) (by decide) (o.columns_quiet c hc))
  have hindent : Keeps (fun s => ¬ Has '/' '*' s) indent := hP.keeps (by decide)
  have hall := (((htables.append hname).append hlines).append hindent) _ o.head_quiet
  simpa only [before, bodyBefore, List.append_assoc, List.cons_append, List.nil_append] using hall

/-- A law that the names behind the opening keep holds of the text behind it. -/
theorem after_keeps (h : Printable ts) (hP : Blind P) (hnil : P []) (htail : Keeps P (o.tail ++ [' ']))
    (hcolumns : ∀ c ∈ o.columnsAfter, Keeps P (c.name.toList ++ [' ']))
    (hkey : ∀ k, o.table.primaryKey = some k → Keeps P (k.toList ++ [')']))
    (hlinks : ∀ c ∈ o.table.columns, (c.target? ts).isSome = true → Keeps P (c.name.toList ++ [')']))
    (htables : ∀ t ∈ o.tablesAfter, Written P ts t) : P o.after := by
  have hcolumn := h.columns _ o.table_mem _ o.column_mem
  have htype : Keeps P (o.column.type.toList ++ columnTail o.column) := hP.keeps (by
    rw [List.forall_mem_append]
    exact ⟨fun ch hch => isInert_of_isTypeChar (hcolumn.type_chars ch hch), columnTail_inert hcolumn⟩)
  have hlines : Keeps P (layAfter o.linesAfter) := by
    refine keeps_layAfter hP fun l hl => ?_
    rcases List.mem_append.1 hl with hl | hl
    · obtain ⟨c, hc, rfl⟩ := List.mem_map.1 hl
      exact keeps_columnLine hP (h.columns _ o.table_mem c (o.mem_columnsAfter hc)) (hcolumns c hc)
    · exact keeps_clauses hP h o.table_mem hkey hlinks l hl
  have hend : Keeps P ('\n' :: ')' :: ending) := hP.keeps (by decide)
  have hrest : Keeps P (statementsText ts o.tablesAfter) :=
    keeps_statementsText hP h (fun t ht => o.mem_after ht) htables
  have hall := ((((htail.append htype).append hlines).append hend).append hrest) [] hnil
  simpa only [after, bodyAfter, hcolumn.baseType_eq, List.append_assoc, List.cons_append,
    List.nil_append, List.append_nil] using hall

/-- Where names make no comments, no name behind the opening closes it. -/
theorem not_closed (hcalm : Calm (columnNames ts)) : ¬ Has '*' '/' o.tail ∧
    (∀ c ∈ o.columnsAfter, ¬ Has '*' '/' c.name.toList) ∧
      ∀ t ∈ o.tablesAfter, ∀ c ∈ t.columns, ¬ Has '*' '/' c.name.toList := by
  have hnames : columnNames ts = columnNames o.tablesBefore ++
      (o.columnsBefore.map (·.name.toList) ++ o.column.name.toList ::
        (o.columnsAfter.map (·.name.toList) ++ columnNames o.tablesAfter)) := by
    nth_rewrite 1 [o.tables_eq]
    simp only [columnNames, List.flatMap_append, List.flatMap_cons, o.columns_eq, List.map_append,
      List.map_cons, List.append_assoc, List.cons_append]
  have hpairs := hcalm.pairs
  rw [hnames, List.pairwise_append, List.pairwise_append, List.pairwise_cons] at hpairs
  have hafter := hpairs.2.1.2.1.1
  refine ⟨?_, fun c hc => ?_, fun t ht c hc => ?_⟩
  · exact (hcalm.words _ (mem_columnNames o.table_mem o.column_mem)).quiet o.head o.tail o.name_eq
  · exact hafter _ (List.mem_append_left _ (List.mem_map_of_mem hc)) o.has_column
  · exact hafter _ (List.mem_append_right _ (mem_columnNames ht hc)) o.has_column

/-- Clauses that name words do not close it either. -/
theorem not_has_after (h : Printable ts) (hcalm : Calm (columnNames ts)) (hw : ∀ t ∈ ts, Worded ts t) :
    ¬ Has '*' '/' o.after := by
  have hP : Blind fun s => ¬ Has '*' '/' s := blind_not_has (by decide) (by decide)
  have hspace : ∀ {s : List Char}, ¬ Has '*' '/' s → Keeps (fun s => ¬ Has '*' '/' s) (s ++ [' ']) :=
    not_has_append_singleton (by decide) (by decide)
  have hword : ∀ {s : List Char}, Word s → Keeps (fun s => ¬ Has '*' '/' s) (s ++ [')']) := fun hs =>
    not_has_append_singleton (by decide) (by decide)
      (not_has_of_not_mem fun hc => (isInert_spec (Word.inert hs _ hc)).2.1 rfl)
  obtain ⟨htail, hcolumns, htables⟩ := o.not_closed hcalm
  refine o.after_keeps h hP not_has_nil (hspace htail) (fun c hc => hspace (hcolumns c hc))
    (fun k hk => hword ((hw _ o.table_mem).key k hk))
    (fun c hc hset => hword ((hw _ o.table_mem).links c hc hset)) fun t ht => ?_
  have hwt := hw t (o.mem_after ht)
  exact ⟨fun c hc => hspace (htables t ht c hc), fun k hk => hword (hwt.key k hk),
    fun c hc hset => hword (hwt.links c hc hset)⟩

/-- In any case it is closed in a clause only, and so in parentheses. -/
theorem shut_after (h : Printable ts) (hcalm : Calm (columnNames ts)) : Shut o.after := by
  have hspace : ∀ {s : List Char}, ¬ Has '*' '/' s → Keeps Shut (s ++ [' ']) :=
    keeps_shut_of_not_has (by decide)
  have hname : ∀ t ∈ ts, ∀ c ∈ t.columns, Keeps Shut (c.name.toList ++ [')']) := fun t ht c hc =>
    keeps_shut_name (h.columns t ht c hc).name_chars
  have hkey : ∀ t ∈ ts, ∀ k, t.primaryKey = some k → Keeps Shut (k.toList ++ [')']) := by
    intro t ht k hk
    obtain ⟨c, hc, -, rfl⟩ := mem_of_primaryKey hk
    exact hname t ht c hc
  obtain ⟨htail, hcolumns, htables⟩ := o.not_closed hcalm
  exact o.after_keeps h blind_shut shut_nil (hspace htail) (fun c hc => hspace (hcolumns c hc))
    (hkey _ o.table_mem) (fun c hc _ => hname _ o.table_mem c hc)
    fun t ht => ⟨fun c hc => hspace (htables t ht c hc), hkey t (o.mem_after ht),
      fun c hc _ => hname t (o.mem_after ht) c hc⟩

end Opening

theorem not_has_dashes (h : Printable ts) (hcalm : Calm (columnNames ts)) :
    ¬ Has '-' '-' (generate ts).toList := by
  have hP : Blind fun s => ¬ Has '-' '-' s := blind_not_has (by decide) (by decide)
  have hwritten : ∀ t ∈ ts, Written (fun s => ¬ Has '-' '-' s) ts t := fun t ht =>
    written_of_columns fun c hc ch hch =>
      not_has_append_singleton (isInert_spec hch).2.2 (isInert_spec hch).2.2
        (hcalm.words _ (mem_columnNames ht hc)).dashes
  have hall := keeps_statementsText hP h (fun _ ht => ht) hwritten [] not_has_nil
  rw [toList_generate]
  rwa [List.append_nil] at hall

/-- SQL in which no column opens a comment has none. -/
theorem quiet_generate (h : Printable ts)
    (hnone : ¬ ∃ t ∈ ts, ∃ c ∈ t.columns, Has '/' '*' c.name.toList) : Quiet (generate ts).toList := by
  have hP : Blind fun s => ¬ Has '/' '*' s := blind_not_has (by decide) (by decide)
  have hwritten : ∀ t ∈ ts, Written (fun s => ¬ Has '/' '*' s) ts t := fun t ht =>
    written_of_columns fun c hc ch hch =>
      not_has_append_singleton (isInert_spec hch).1 (isInert_spec hch).2.1
        fun hopen => hnone ⟨t, ht, c, hc, hopen⟩
  have hall := keeps_statementsText hP h (fun _ ht => ht) hwritten [] not_has_nil
  rw [toList_generate]
  rw [List.append_nil] at hall
  exact fun a b hs => absurd ⟨a, b, hs⟩ hall

/-- SQL whose clauses name words has no comments if the names of its columns make none. -/
theorem uncommented_generate (h : Printable ts) (hw : ∀ t ∈ ts, Worded ts t)
    (hcalm : Calm (columnNames ts)) : Uncommented (generate ts).toList := by
  refine ⟨?_, not_has_dashes h hcalm⟩
  by_cases hopen : ∃ t ∈ ts, ∃ c ∈ t.columns, Has '/' '*' c.name.toList
  · obtain ⟨o⟩ := exists_opening hopen
    rw [o.toList_generate]
    exact quiet_append_opening (o.before_quiet h) (o.not_has_after h hcalm hw)
  · exact quiet_generate h hopen

end SchemaDesign.Export.Sql
