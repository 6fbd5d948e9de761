import SchemaDesign.Proofs.Store.Repeat

/-! Taking every column from a table and taking the table itself. The first demotes the foreign keys that
name one of its columns, the second sweeps up all that lead into it; in a store whose references all lead
somewhere these are the same. -/
namespace SchemaDesign.Store

variable {s : Store String} {d : Draft String} {t : Table String} {ts : List (Table String)}
  {target : String}

/-- All tables but those of an id. -/
def others (id : String) (ts : List (Table String)) : List (Table String) :=
  ts.filter fun u => !(u.id == id)

theorem others_replaceFirst (t : Table String) (ts : List (Table String)) :
    others t.id (replaceFirst t ts) = others t.id ts := by
  unfold others
  induction ts with
  | nil => rfl
  | cons v ts ih =>
    by_cases hv : v.id = t.id
    · simp [replaceFirst, hv]
    · simp [replaceFirst, hv, ih]

/-- A demotion leaves ids alone, and looks at each table by itself. -/
theorem others_demoteReferences (id target : String) (removed : List (Column String)) (whole : Bool)
    (ts : List (Table String)) : others id (demoteReferences target removed whole ts) =
      demoteReferences target removed whole (others id ts) := by
  unfold others demoteReferences
  rw [List.filter_map]
  refine congrArg (List.map _) (List.filter_congr fun u _ => ?_)
  dsimp only [Function.comp]
  split <;> rfl

/-! The sweep of a whole table -/

/-- After a sweep no column is left that another one would meet. -/
theorem isHit_demoteColumn (removed gone : List (Column String)) (c : Column String) :
    isHit target gone true (demoteColumn target removed true c) = false := by
  unfold demoteColumn
  split
  · rfl
  · next hkept => simpa [isHit] using hkept

theorem demoteReferences_sweep (removed gone : List (Column String)) (ts : List (Table String)) :
    demoteReferences target gone true (demoteReferences target removed true ts) =
      demoteReferences target removed true ts := by
  have hcolumn : ∀ c, demoteColumn target gone true (demoteColumn target removed true c) =
      demoteColumn target removed true c := fun c => if_neg (by simp [isHit_demoteColumn])
  unfold demoteReferences
  rw [List.map_map]
  refine List.map_congr_left fun u _ => ?_
  by_cases hu : u.id = target <;> simp [hu, Function.comp_def, hcolumn]

/-- Where every reference into a table names one of its columns, the sweep meets the same foreign keys
as the removal of all columns. -/
theorem Whole.demoteReferences_columns (h : s.Whole) (ht : t ∈ s.tables) :
    demoteReferences t.id t.columns false s.tables = demoteReferences t.id t.columns true s.tables := by
  have hcolumn : ∀ u ∈ s.tables, ∀ c ∈ u.columns,
      demoteColumn t.id t.columns false c = demoteColumn t.id t.columns true c := by
    intro u hu c hc
    have hnamed : c.references.tableId = t.id → c.references.columnName ∈ t.columns.map (·.name) :=
      h.columnName_mem ht hu hc
    have hhit : isHit t.id t.columns false c = isHit t.id t.columns true c := by
      rw [Bool.eq_iff_iff, isHit_iff fun _ _ => hnamed, isHit_iff fun _ _ => hnamed]
    simp only [demoteColumn, hhit]
  refine List.map_congr_left fun u hu => ?_
  rw [List.map_congr_left (hcolumn u hu)]

theorem removedColumns_eq_columns (h : ∀ c ∈ d.columns, c.name ∉ t.columnNames) :
    removedColumns t d = t.columns := by
  rw [removedColumns_eq, List.filter_eq_self]
  intro c hc
  have hfree : c.name ∉ d.columns.map (·.name) := by
    intro hmem
    obtain ⟨e, he, hname⟩ := List.mem_map.1 hmem
    exact h e he (hname ▸ List.mem_map_of_mem hc)
  simpa using hfree

theorem delete_tables (h : s.get? t.id = some t) :
    (s.delete t.id).store.tables = others t.id (demoteReferences t.id t.columns true s.tables) :=
  (delete_of_get? h).2

/-- The update that takes all columns away sweeps as a deletion does. -/
theorem Whole.update_tables (h : s.Whole) (ht : t ∈ s.tables) {u : Table String}
    (hanswer : (s.update t.id d).result = some u) (hfree : ∀ c ∈ d.columns, c.name ∉ t.columnNames) :
    u.id = t.id ∧ (s.update t.id d).store.tables =
      replaceFirst u (demoteReferences t.id t.columns true s.tables) := by
  obtain ⟨old, hget, hsettle, htables⟩ := update_result_eq_some hanswer
  obtain rfl : t = old := Option.some.inj ((h.get?_eq_some ht).symm.trans hget)
  rw [beforeUpdate, removedColumns_eq_columns hfree, h.demoteReferences_columns ht] at htables
  exact ⟨by rw [hsettle]; rfl, htables⟩

/-- An update whose draft shares no column name with the table and a deletion of the table leave the
same other tables; and a deletion after the update leaves the same store as one without it. This holds on
every reachable store, whatever the columns refer to, each other and the table itself included. -/
theorem run_removal (ids : TableId.Supply) (actions : List Action) {u : Table String}
    (ht : t ∈ (run ids actions).tables)
    (hanswer : ((run ids actions).update t.id d).result = some u)
    (hfree : ∀ c ∈ d.columns, c.name ∉ t.columnNames) :
    ((run ids actions).delete t.id).result = true ∧
    others t.id ((run ids actions).update t.id d).store.tables =
      ((run ids actions).delete t.id).store.tables ∧
    (((run ids actions).update t.id d).store.delete t.id).result = true ∧
    (((run ids actions).update t.id d).store.delete t.id).store = ((run ids actions).delete t.id).store := by
  have hw := run_whole ids actions
  have hget := hw.get?_eq_some ht
  have hfound : ((run ids actions).update t.id d).store.get? t.id = some u := by
    rw [get?_update hget hanswer, if_pos rfl]
  obtain ⟨hid, htables⟩ := hw.update_tables ht hanswer hfree
  have hothers : others t.id ((run ids actions).update t.id d).store.tables =
      ((run ids actions).delete t.id).store.tables := by
    rw [htables, delete_tables hget, ← hid, others_replaceFirst]
  refine ⟨(delete_of_get? hget).1, hothers, (delete_of_get? hfound).1, eq_of_tables ?_ ?_⟩
  · -- the second sweep goes over tables that the first one has left
    rw [← hid] at hfound hothers ⊢
    rw [delete_tables hfound, others_demoteReferences, hothers, hid, delete_tables hget,
      ← others_demoteReferences, demoteReferences_sweep]
  · rw [delete_ids, delete_ids, update_ids]

/-- A draft that gives the referenced table a column of another name, with a key into itself. -/
def renewedUsers : Draft String :=
  ⟨"users", "", [⟨"code", "int", none, true, false, false, true, ⟨TableId.ofNumber 1, "code"⟩⟩], none⟩

/-- The table of `linkedRun` that the other one points at. -/
def linkedUsers : Table String :=
  ⟨TableId.ofNumber 1, "users", "",
    [⟨"id", "int", none, false, true, true, false, Reference.unset⟩,
     ⟨"mail", "varchar", some 40, false, true, false, false, Reference.unset⟩,
     ⟨"nick", "int", none, true, true, false, false, Reference.unset⟩]⟩

theorem removal_linkedRun :
    linkedUsers ∈ (run .counter linkedRun).tables ∧
    ((run .counter linkedRun).update linkedUsers.id renewedUsers).result.isSome = true ∧
    others linkedUsers.id ((run .counter linkedRun).update linkedUsers.id renewedUsers).store.tables =
      [demotedPosts] ∧
    ((run .counter linkedRun).delete linkedUsers.id).store.tables = [demotedPosts] ∧
    (((run .counter linkedRun).update linkedUsers.id renewedUsers).store.delete linkedUsers.id).store =
      ((run .counter linkedRun).delete linkedUsers.id).store := by
  have hmem : linkedUsers ∈ (run .counter linkedRun).tables := by decide +kernel
  have hsome : ((run .counter linkedRun).update linkedUsers.id renewedUsers).result.isSome = true := by
    decide +kernel
  obtain ⟨u, hu⟩ := Option.isSome_iff_exists.1 hsome
  obtain ⟨-, hothers, -, hstore⟩ := run_removal .counter linkedRun hmem hu (by decide)
  have hdeleted : ((run .counter linkedRun).delete linkedUsers.id).store.tables = [demotedPosts] := by
    decide +kernel
  exact ⟨hmem, hsome, hothers.trans hdeleted, hdeleted, hstore⟩

end SchemaDesign.Store
