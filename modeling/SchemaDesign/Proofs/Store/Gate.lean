import SchemaDesign.Proofs.Sql.OfText
import SchemaDesign.Proofs.Store.Written

/-! What the gate keeps out of a store, over all runs. Drafts have to pass it and texts do not, so a text
can bring in a table without columns. A line break at the end of a name gets past the gate itself, so a
draft can bring in such a name; a text cannot. -/
namespace SchemaDesign.Store

variable {s : Store String} {a : Action} {t : Table String}

theorem Writes.name_not_blank (h : Writes s a t) : Text.trim t.name.toList ≠ [] := by
  cases hd : a.draft? with
  | some d =>
    obtain ⟨hgate, hname, -⟩ := h.of_draft hd
    rw [hname]
    exact (Validation.problems_eq_nil.1 hgate).1
  | none =>
    obtain ⟨text, r, rfl, hanswer, hmem⟩ := h.of_draft?_eq_none hd
    obtain ⟨hne, hword⟩ :=
      (Export.Sql.printable_read (importDdl_result_eq_ok.1 hanswer)).names t hmem
    rwa [Text.trim_of_forall fun c hc => Text.isBlank_of_isWord (hword c hc)]

/-- A table without columns was read from a text. -/
theorem Writes.of_columns_eq_nil (h : Writes s a t) (ht : t.columns = []) :
    ∃ text r, a = .importDdl text ∧ (s.importDdl text).result = .ok r ∧ t ∈ r.tables := by
  cases hd : a.draft? with
  | some d =>
    obtain ⟨hgate, -, hnames⟩ := h.of_draft hd
    simp only [Table.columnNames, ht, List.map_nil] at hnames
    exact absurd (List.map_eq_nil_iff.1 hnames.symm) (Validation.problems_eq_nil.1 hgate).2.1
  | none => exact h.of_draft?_eq_none hd

theorem columnsProblems_of_keyed {cs : List (Column String)} (h : Column.Keyed cs) :
    Validation.columnsProblems [] 1 cs = [] := by
  refine Validation.columnsProblems_eq_nil.2 ⟨fun c hc => ⟨?_, List.not_mem_nil⟩, h.names_nodup⟩
  have hvalid := h.names_valid c hc
  exact Validation.isValidColumn_iff.2 ⟨Validation.ne_empty_of_isValidName hvalid, hvalid, h.types c hc⟩

/-- A table of a reachable store has one thing wrong at most: that it has no columns. -/
theorem problems_of_mem_run {ids : TableId.Supply} {actions : List Action}
    (ht : t ∈ (run ids actions).tables) :
    Validation.problems t.name t.columns = if t.columns.isEmpty then [.noColumns] else [] := by
  obtain ⟨before, a, after, w, -, hwrites, hkept⟩ := run_written ht
  have hname : Text.trim t.name.toList ≠ [] := by
    rw [hkept.name]
    exact hwrites.name_not_blank
  exact Validation.problems_of_columns hname (columnsProblems_of_keyed (run_keyed ids actions t ht))

/-- A table without columns stands in the store as an import read it. -/
theorem imported_of_columns_eq_nil {ids : TableId.Supply} {actions : List Action}
    (ht : t ∈ (run ids actions).tables)
    (hnil : t.columns = []) :
    ∃ before text after r, actions = before ++ .importDdl text :: after ∧
      ((run ids before).importDdl text).result = .ok r ∧ t ∈ r.tables := by
  obtain ⟨before, a, after, w, hrun, hwrites, hkept⟩ := run_written ht
  obtain rfl := hkept.eq_of_columns_eq_nil hnil
  obtain ⟨text, r, rfl, hanswer, hmem⟩ := hwrites.of_columns_eq_nil hnil
  exact ⟨before, text, after, r, hrun, hanswer, hmem⟩

/-- Every table that has columns passes the gate, whatever calls there were. A table that has none fails
it for that alone, and is as a text had it. So all tables pass all along a run if no import of it reads a
table without columns, and only then. -/
theorem run_gate (ids : TableId.Supply) (actions : List Action) :
    (∀ t ∈ (run ids actions).tables,
      (t.columns ≠ [] → Validation.problems t.name t.columns = []) ∧
      (t.columns = [] → Validation.problems t.name t.columns = [.noColumns] ∧
        ∃ before text after r, actions = before ++ .importDdl text :: after ∧
          ((run ids before).importDdl text).result = .ok r ∧ t ∈ r.tables)) ∧
    ((∀ before, before <+: actions → ∀ t ∈ (run ids before).tables,
        Validation.problems t.name t.columns = []) ↔
      ∀ before text after r, actions = before ++ .importDdl text :: after →
        ((run ids before).importDdl text).result = .ok r → ∀ t ∈ r.tables, t.columns ≠ []) := by
  refine ⟨fun t ht => ⟨fun hne => ?_, fun hnil => ⟨?_, imported_of_columns_eq_nil ht hnil⟩⟩, ?_, ?_⟩
  · rw [problems_of_mem_run ht, if_neg (by simpa using hne)]
  · rw [problems_of_mem_run ht, if_pos (by simpa using hnil)]
  · intro hgate before text after r hrun hanswer t hmem
    have hwrites : Writes (run ids before) (.importDdl text) t := .imported hanswer hmem
    exact (Validation.problems_eq_nil.1 (hgate _ ⟨after, by simp [hrun]⟩ t hwrites.mem_run)).2.1
  · rintro himports before ⟨rest, rfl⟩ t ht
    rw [problems_of_mem_run ht, if_neg]
    intro hnil
    obtain ⟨earlier, text, later, r, rfl, hanswer, hmem⟩ :=
      imported_of_columns_eq_nil ht (by simpa using hnil)
    exact himports earlier text (later ++ rest) r (by simp) hanswer t hmem (by simpa using hnil)

/-- A text with a bare table and a table with a column. -/
def bareText : String := "CREATE TABLE bare ();\nCREATE TABLE users (id int PRIMARY KEY);"

def bareTable : Table String := ⟨TableId.ofNumber 1, "bare", "", []⟩

def keyedTable : Table String :=
  ⟨TableId.ofNumber 2, "users", "", [⟨"id", "int", none, false, true, true, false, Reference.unset⟩]⟩

theorem gate_bareText :
    bareTable ∈ (run .counter [.importDdl bareText]).tables ∧
      Validation.problems bareTable.name bareTable.columns = [.noColumns] ∧
      keyedTable ∈ (run .counter [.importDdl bareText]).tables ∧
      Validation.problems keyedTable.name keyedTable.columns = [] := by
  have hbare : bareTable ∈ (run .counter [.importDdl bareText]).tables := by decide +kernel
  have hkeyed : keyedTable ∈ (run .counter [.importDdl bareText]).tables := by decide +kernel
  obtain ⟨hgate, -⟩ := run_gate .counter [.importDdl bareText]
  exact ⟨hbare, ((hgate _ hbare).2 rfl).1, hkeyed, (hgate _ hkeyed).1 (by decide)⟩

/-- An import puts a table into the store that a draft could not be. -/
theorem not_gate_bareTable :
    ¬ ∀ t ∈ (run .counter [.importDdl "CREATE TABLE t ();"]).tables,
      Validation.problems t.name t.columns = [] := by
  decide +kernel

/-! Names -/

/-- The names that a text gives to columns obey the grammar. -/
theorem grammatical_of_read {ids : TableId.Supply} {text : String} {r : Ddl.Report}
    (h : Ddl.read ids text = .ok r) (ht : t ∈ r.tables) :
    ∀ name ∈ t.columnNames, Validation.Grammatical name := by
  intro name hname
  obtain ⟨c, hc, rfl⟩ := List.mem_map.1 hname
  refine Validation.grammatical_of_getLast?_ne ((Ddl.read_keyed h ht).names_valid c hc) fun hlast => ?_
  have hchar := ((Export.Sql.printable_read h).columns t ht c hc).name_chars _ (List.mem_of_getLast? hlast)
  exact absurd (Ddl.isNameChar_spec hchar).1 (by decide)

/-- No draft that the calls of a run commit has a column name that ends in a line break. -/
def Unbroken (ids : TableId.Supply) (actions : List Action) : Prop :=
  ∀ before a after d t, actions = before ++ a :: after → a.draft? = some d → Writes (run ids before) a t →
    ∀ c ∈ d.columns, c.name.toList.getLast? ≠ some '\n'

theorem unbroken_of_drafts {ids : TableId.Supply} {actions : List Action}
    (h : ∀ a ∈ actions, ∀ d ∈ a.draft?, ∀ c ∈ d.columns, c.name.toList.getLast? ≠ some '\n') :
    Unbroken ids actions := by
  rintro before a after d t rfl hd -
  exact h a (by simp) d hd

/-- What the gate takes for a valid name, what names are after any run, and the runs whose stores hold
names without digits, white space and semicolons all along. -/
theorem run_names (ids : TableId.Supply) (actions : List Action) :
    (∀ name, Validation.isValidName name = true ↔
      Validation.Grammatical name ∨ ∃ n, Validation.Grammatical n ∧ name = n ++ "\n") ∧
    (∀ t ∈ (run ids actions).tables, ∀ name ∈ t.columnNames,
      Validation.Grammatical name ∨ ∃ n, Validation.Grammatical n ∧ name = n ++ "\n") ∧
    ((∀ before, before <+: actions → ∀ t ∈ (run ids before).tables, ∀ name ∈ t.columnNames,
        Validation.Grammatical name) ↔
      Unbroken ids actions) := by
  have hvalid : ∀ actions, ∀ t ∈ (run ids actions).tables, ∀ name ∈ t.columnNames,
      Validation.isValidName name = true := by
    intro actions t ht name hname
    obtain ⟨c, hc, rfl⟩ := List.mem_map.1 hname
    exact (run_keyed ids actions t ht).names_valid c hc
  refine ⟨fun name => Validation.isValidName_iff,
    fun t ht name hname => Validation.isValidName_iff.1 (hvalid actions t ht name hname), ?_, ?_⟩
  · intro hgrammar before a after d t hrun hd hwrites c hc
    have hname : c.name ∈ t.columnNames := by
      rw [(hwrites.of_draft hd).2.2]
      exact List.mem_map_of_mem hc
    exact (hgrammar _ ⟨after, by simp [hrun]⟩ t hwrites.mem_run c.name hname).getLast?_ne
  · rintro hunbroken before ⟨rest, rfl⟩ u hu name hname
    obtain ⟨earlier, a, later, t, rfl, hwrites, hkept⟩ := run_written hu
    cases hd : a.draft? with
    | none =>
      obtain ⟨text, r, rfl, hanswer, hmem⟩ := hwrites.of_draft?_eq_none hd
      exact grammatical_of_read (importDdl_result_eq_ok.1 hanswer) hmem name (hkept.columnNames ▸ hname)
    | some d =>
      refine Validation.grammatical_of_getLast?_ne (hvalid _ u hu name hname) ?_
      rw [hkept.columnNames, (hwrites.of_draft hd).2.2] at hname
      obtain ⟨c, hc, rfl⟩ := List.mem_map.1 hname
      exact hunbroken earlier a (later ++ rest) d t (by simp) hd hwrites c hc

/-- A draft whose column is named by two letters and a line break. -/
def brokenRun : List Action :=
  [.create ⟨"users", "", [⟨"id\n", "int", none, true, false, false, false, Reference.unset⟩], none⟩]

def brokenTable : Table String :=
  ⟨TableId.ofNumber 1, "users", "", [⟨"id\n", "int", none, true, false, false, false, Reference.unset⟩]⟩

theorem names_draftedRun :
    (∀ name ∈ draftedUsers.columnNames, Validation.Grammatical name) ∧
      brokenTable ∈ (run .counter brokenRun).tables ∧ ¬ Unbroken .counter brokenRun := by
  have hdrafted : draftedUsers ∈ (run .counter draftedRun).tables := by decide +kernel
  have hbroken : brokenTable ∈ (run .counter brokenRun).tables := by decide +kernel
  obtain ⟨-, -, hnames⟩ := run_names .counter draftedRun
  obtain ⟨-, -, hnames'⟩ := run_names .counter brokenRun
  have hunbroken : Unbroken .counter draftedRun := unbroken_of_drafts (by decide +kernel)
  refine ⟨hnames.2 hunbroken draftedRun (List.prefix_refl _) _ hdrafted, hbroken, fun h => ?_⟩
  have hgrammatical := hnames'.2 h brokenRun (List.prefix_refl _) _ hbroken "id\n" (by decide)
  exact absurd hgrammatical (by decide +kernel)

/-- The gate lets white space into a name, and the name into the store. -/
theorem not_grammatical_brokenTable :
    brokenTable ∈ (run .counter brokenRun).tables ∧ "id\n" ∈ brokenTable.columnNames ∧
      Validation.isValidName "id\n" = true ∧ ¬ Validation.Grammatical "id\n" := by
  decide +kernel

end SchemaDesign.Store
