import SchemaDesign.Proofs.Store.Run

/-! What each call answers and leaves behind: when it is refused, that a refused call changes no table,
and what a call that is not refused does. -/
namespace SchemaDesign.Store

variable {s : Store String} {id : String} {d : Draft String} {old : Table String}

theorem get?_eq_none : s.get? id = none ↔ ∀ t ∈ s.tables, t.id ≠ id := by
  simp [get?]

theorem eq_of_tables {u : Store String} (htables : u.tables = s.tables) (hids : u.ids = s.ids) :
    u = s := by
  cases u
  cases s
  simp_all

/-! Creation -/

theorem create_of_gate (h : Validation.problems d.name d.columns = []) :
    (s.create d).result = some (s.settle s.ids.first d) := by
  simp [create, h, Label.ofText]

theorem create_of_problems (h : Validation.problems d.name d.columns ≠ []) :
    (s.create d).result = none ∧ (s.create d).store = s := by
  unfold create
  split
  · next hgate => exact absurd hgate h
  · exact ⟨rfl, rfl⟩

theorem create_result_eq_none :
    (s.create d).result = none ↔ Validation.problems d.name d.columns ≠ [] := by
  refine ⟨fun h hgate => ?_, fun h => (create_of_problems h).1⟩
  rw [create_of_gate hgate] at h
  exact absurd h (Option.some_ne_none _)

theorem create_refused (h : (s.create d).result = none) : (s.create d).store = s :=
  (create_of_problems (create_result_eq_none.1 h)).2

theorem create_result_eq_some {t : Table String} (h : (s.create d).result = some t) :
    Validation.problems d.name d.columns = [] ∧ t = s.settle s.ids.first d ∧
      (s.create d).store.tables = s.tables ++ [t] := by
  have hgate : Validation.problems d.name d.columns = [] := by
    by_contra hproblems
    rw [create_result_eq_none.2 hproblems] at h
    exact absurd h.symm (Option.some_ne_none t)
  obtain rfl : s.settle s.ids.first d = t :=
    Option.some.inj ((create_of_gate hgate).symm.trans h)
  exact ⟨hgate, rfl, by simp [create, hgate, Label.ofText]⟩

/-! Update -/

theorem update_of_gate (hold : s.get? id = some old)
    (h : Validation.problems d.name d.columns = []) :
    (s.update id d).result = some ((s.beforeUpdate old d).settle old.id d) ∧
      (s.update id d).store.tables =
        replaceFirst ((s.beforeUpdate old d).settle old.id d) (s.beforeUpdate old d).tables := by
  simp [update, hold, h, beforeUpdate]

theorem update_of_get?_none (h : s.get? id = none) :
    (s.update id d).result = none ∧ (s.update id d).store = s := by
  simp [update, h]

theorem update_of_problems (h : Validation.problems d.name d.columns ≠ []) :
    (s.update id d).result = none ∧ (s.update id d).store = s := by
  unfold update
  split
  · exact ⟨rfl, rfl⟩
  · split
    · next hgate => exact absurd hgate h
    · exact ⟨rfl, rfl⟩

theorem update_result_eq_none :
    (s.update id d).result = none ↔
      (∀ t ∈ s.tables, t.id ≠ id) ∨ Validation.problems d.name d.columns ≠ [] := by
  constructor
  · intro h
    by_contra hpass
    obtain ⟨hknown, hgate⟩ := not_or.1 hpass
    obtain ⟨old, hold⟩ := Option.ne_none_iff_exists'.1 (mt get?_eq_none.1 hknown)
    rw [(update_of_gate hold (not_not.1 hgate)).1] at h
    exact Option.some_ne_none _ h
  · rintro (h | h)
    · exact (update_of_get?_none (get?_eq_none.2 h)).1
    · exact (update_of_problems h).1

theorem update_refused (h : (s.update id d).result = none) : (s.update id d).store = s := by
  rcases update_result_eq_none.1 h with h | h
  · exact (update_of_get?_none (get?_eq_none.2 h)).2
  · exact (update_of_problems h).2

theorem update_gate {t : Table String} (h : (s.update id d).result = some t) :
    Validation.problems d.name d.columns = [] := by
  by_contra hproblems
  rw [(update_of_problems hproblems).1] at h
  exact absurd h.symm (Option.some_ne_none t)

theorem update_result_eq_some {t : Table String} (h : (s.update id d).result = some t) :
    ∃ old, s.get? id = some old ∧ t = (s.beforeUpdate old d).settle old.id d ∧
      (s.update id d).store.tables = replaceFirst t (s.beforeUpdate old d).tables := by
  have hpass : ¬((∀ t ∈ s.tables, t.id ≠ id) ∨ Validation.problems d.name d.columns ≠ []) := by
    rw [← update_result_eq_none, h]
    exact Option.some_ne_none t
  obtain ⟨hknown, hgate⟩ := not_or.1 hpass
  obtain ⟨old, hold⟩ := Option.ne_none_iff_exists'.1 (mt get?_eq_none.1 hknown)
  obtain ⟨hresult, htables⟩ := update_of_gate hold (not_not.1 hgate)
  obtain rfl : (s.beforeUpdate old d).settle old.id d = t := Option.some.inj (hresult.symm.trans h)
  exact ⟨old, hold, rfl, htables⟩

theorem update_ids (s : Store String) (id : String) (d : Draft String) :
    (s.update id d).store.ids = s.ids := by
  unfold update
  split
  · rfl
  · split <;> rfl

/-! Deletion and import -/

theorem delete_of_get? (h : s.get? id = some old) :
    (s.delete id).result = true ∧ (s.delete id).store.tables =
      (demoteReferences old.id old.columns true s.tables).filter fun u => !(u.id == old.id) := by
  simp [delete, h, (get?_eq_some h).2]

theorem delete_of_get?_none (h : s.get? id = none) :
    (s.delete id).result = false ∧ (s.delete id).store = s := by
  simp [delete, h]

theorem delete_ids (s : Store String) (id : String) : (s.delete id).store.ids = s.ids := by
  unfold delete
  split <;> rfl

theorem importDdl_result_eq_ok {text : String} {r : Ddl.Report} :
    (s.importDdl text).result = .ok r ↔ Ddl.read s.ids text = .ok r := by
  cases h : Ddl.read s.ids text <;> simp [importDdl, h]

theorem importDdl_tables {text : String} {r : Ddl.Report} (h : Ddl.read s.ids text = .ok r) :
    (s.importDdl text).store.tables = s.tables ++ r.tables := by
  simp [importDdl, h, map_ofText]

/-- An import that breaks off adds no table. The ids of the tables that it had begun stay taken. -/
theorem importDdl_refused {text : String} {e : Text.NumeralFault}
    (h : (s.importDdl text).result = .error e) : (s.importDdl text).store.tables = s.tables := by
  cases hread : Ddl.read s.ids text with
  | ok r => simp [importDdl, hread] at h
  | error e => simp [importDdl, hread]

end SchemaDesign.Store
