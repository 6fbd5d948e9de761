import SchemaDesign.Proofs.Store.Run

/-! Keys and names in every store that calls can reach: each table has valid names that differ, and
one primary key at most, which is neither nullable nor repeated. -/
namespace SchemaDesign.Store

variable {s : Store String}

/-- The columns of every table obey the law of keys and names. -/
def Keyed (s : Store String) : Prop := ∀ t ∈ s.tables, Column.Keyed t.columns

theorem sanitise_eq_map (s : Store String) (owner : String) (cs : List (Column String)) :
    s.sanitise owner cs = cs.map fun c =>
      { c with
        references :=
          if !c.foreignKey || s.dangles owner cs c then Reference.unset else c.references } := by
  unfold sanitise
  refine List.map_congr_left fun c _ => ?_
  split <;> rfl

theorem keyed_settle {d : Draft String} (gate : Validation.problems d.name d.columns = [])
    (id : String) : Column.Keyed (s.settle id d).columns := by
  obtain ⟨-, -, hv, hn⟩ := Validation.problems_eq_nil.1 gate
  have hk : Column.Keyed (PrimaryKey.normalise d.primaryKey d.columns) :=
    PrimaryKey.keyed_normalise hn (fun c hc => (Validation.isValidColumn_iff.1 (hv c hc)).2.1)
      fun c hc => (Validation.isValidColumn_iff.1 (hv c hc)).2.2
  unfold settle
  rw [sanitise_eq_map]
  exact hk.map (fun _ => rfl) (fun _ => rfl) (fun _ => rfl) fun _ _ hnull huniq => ⟨hnull, huniq⟩

theorem demoteColumn_name (target : String) (removed : List (Column String)) (whole : Bool)
    (c : Column String) : (demoteColumn target removed whole c).name = c.name := by
  unfold demoteColumn
  split <;> rfl

theorem keyed_demote {cs : List (Column String)} (h : Column.Keyed cs) (target : String)
    (removed : List (Column String)) (whole : Bool) :
    Column.Keyed (cs.map (demoteColumn target removed whole)) := by
  refine h.map (demoteColumn_name target removed whole) ?_ ?_ ?_
  · intro c; unfold demoteColumn; split <;> rfl
  · intro c; unfold demoteColumn; split <;> rfl
  · intro c hp hn hu
    unfold demoteColumn
    split
    · simp [Column.demote, hp]
    · exact ⟨hn, hu⟩

theorem keyed_demoteReferences (h : s.Keyed) (target : String) (removed : List (Column String))
    (whole : Bool) : ∀ t ∈ demoteReferences target removed whole s.tables, Column.Keyed t.columns := by
  unfold demoteReferences
  rw [List.forall_mem_map]
  intro t ht
  split
  · exact h t ht
  · exact keyed_demote (h t ht) target removed whole

theorem mem_replaceFirst {t u : Table String} {ts : List (Table String)}
    (h : u ∈ replaceFirst t ts) : u = t ∨ u ∈ ts := by
  induction ts with
  | nil => exact .inr h
  | cons v ts ih =>
    unfold replaceFirst at h
    split at h
    · rcases List.mem_cons.1 h with rfl | h
      · exact .inl rfl
      · exact .inr (List.mem_cons_of_mem _ h)
    · rcases List.mem_cons.1 h with rfl | h
      · exact .inr List.mem_cons_self
      · exact (ih h).imp_right (List.mem_cons_of_mem _)

theorem Keyed.changes {s' : Store String} (h : s.Keyed) (hc : Changes s s') : s'.Keyed := by
  cases hc with
  | given _ => exact h
  | created d gate =>
    intro t ht
    rcases List.mem_append.1 ht with ht | ht
    · exact h t ht
    · rw [List.mem_singleton.1 ht]
      exact keyed_settle gate _
  | updated old d found gate =>
    intro t ht
    rcases mem_replaceFirst ht with rfl | ht
    · exact keyed_settle gate _
    · exact keyed_demoteReferences h _ _ _ t ht
  | deleted _ _ =>
    intro u hu
    exact keyed_demoteReferences h _ _ _ u (List.mem_filter.1 hu).1
  | imported text r found =>
    intro t ht
    rcases List.mem_append.1 ht with ht | ht
    · exact h t ht
    · exact Ddl.read_keyed found ht
  | cleared => exact fun t ht => absurd ht List.not_mem_nil

theorem run_keyed (ids : TableId.Supply) (actions : List Action) : (run ids actions).Keyed :=
  run_keeps (fun _ ht => absurd ht List.not_mem_nil) (fun _ _ h hc => h.changes hc) actions

/-- What keys and names are after any run, the key that a table tells of itself included. -/
theorem run_keys_and_names (ids : TableId.Supply) (actions : List Action) :
    ∀ t ∈ (run ids actions).tables,
      t.columnNames.Nodup ∧
      (∀ c ∈ t.columns, Validation.isValidName c.name = true ∧ c.type ≠ "") ∧
      t.columns.countP (·.primaryKey) ≤ 1 ∧
      (∀ c ∈ t.columns, c.primaryKey = true →
        c.nullable = false ∧ c.unique = true ∧ t.primaryKey = some c.name) ∧
      ((∀ c ∈ t.columns, c.primaryKey = false) → t.primaryKey = none) := by
  intro t ht
  have h := run_keyed ids actions t ht
  refine ⟨h.names_nodup, fun c hc => ⟨h.names_valid c hc, h.types c hc⟩, h.one_key, ?_,
    Table.primaryKey_eq_none.2⟩
  intro c hc hp
  obtain ⟨hnull, huniq⟩ := h.key_strict c hc hp
  exact ⟨hnull, huniq, h.primaryKey_eq_some hc hp⟩

/-- A table is drafted with two keys, one more is read from a text, and the first one loses a
column. -/
def draftedRun : List Action :=
  [.create ⟨"users", "",
      [⟨"id", "int", none, true, false, true, false, Reference.unset⟩,
       ⟨"mail", "varchar", some 40, true, false, true, false, Reference.unset⟩], some "mail"⟩,
   .importDdl "CREATE TABLE posts (id INT PRIMARY KEY, author varchar(40));",
   .update (TableId.ofNumber 1)
      ⟨"users", "", [⟨"mail", "varchar", some 40, true, false, true, false, Reference.unset⟩], none⟩]

/-- What the first table has become. -/
def draftedUsers : Table String :=
  ⟨TableId.ofNumber 1, "users", "",
    [⟨"mail", "varchar", some 40, false, true, true, false, Reference.unset⟩]⟩

theorem keys_and_names_draftedRun : draftedUsers ∈ (run .counter draftedRun).tables ∧
    draftedUsers.columnNames.Nodup ∧ draftedUsers.columns.countP (·.primaryKey) ≤ 1 := by
  have hmem : draftedUsers ∈ (run .counter draftedRun).tables := by decide +kernel
  obtain ⟨hnames, -, hone, -⟩ := run_keys_and_names .counter draftedRun draftedUsers hmem
  exact ⟨hmem, hnames, hone⟩

end SchemaDesign.Store
