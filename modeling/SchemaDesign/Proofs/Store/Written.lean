import Mathlib.Data.List.Induction
import SchemaDesign.Proofs.Store.Calls
import SchemaDesign.Proofs.Store.References

/-! Where the tables of a store come from. A call puts in the table that it answers with, or those that
it reads from a text. Until another call puts a table in its place, no more of it changes than the
foreign keys of its columns. -/
namespace SchemaDesign.Store

variable {s : Store String} {a : Action} {t u v : Table String}

/-- A call puts a table into a store. -/
inductive Writes (s : Store String) : Action → Table String → Prop
  | created {d : Draft String} {t : Table String} (answer : (s.create d).result = some t) :
      Writes s (.create d) t
  | updated {id : String} {d : Draft String} {t : Table String}
      (answer : (s.update id d).result = some t) : Writes s (.update id d) t
  | imported {text : String} {r : Ddl.Report} {t : Table String}
      (answer : (s.importDdl text).result = .ok r) (mem : t ∈ r.tables) : Writes s (.importDdl text) t

/-- A table apart from what demotion changes in its columns. -/
structure Kept (t u : Table String) : Prop where
  id : u.id = t.id
  name : u.name = t.name
  notes : u.notes = t.notes
  columnNames : u.columnNames = t.columnNames

theorem Kept.refl (t : Table String) : Kept t t := ⟨rfl, rfl, rfl, rfl⟩

theorem Kept.trans (h : Kept t u) (h' : Kept u v) : Kept t v :=
  ⟨h'.id.trans h.id, h'.name.trans h.name, h'.notes.trans h.notes, h'.columnNames.trans h.columnNames⟩

theorem Kept.columns_eq_nil (h : Kept t u) : u.columns = [] ↔ t.columns = [] := by
  have hnames := h.columnNames
  unfold Table.columnNames at hnames
  rw [← List.map_eq_nil_iff (f := (·.name)), hnames, List.map_eq_nil_iff]

/-- Of a table without columns everything is kept. -/
theorem Kept.eq_of_columns_eq_nil (h : Kept t u) (hu : u.columns = []) : u = t := by
  have ht := h.columns_eq_nil.1 hu
  obtain ⟨hid, hname, hnotes, -⟩ := h
  cases t
  cases u
  simp_all

theorem kept_of_mem_demoteReferences {target : String} {removed : List (Column String)} {whole : Bool}
    {ts : List (Table String)} (h : u ∈ demoteReferences target removed whole ts) :
    ∃ t ∈ ts, Kept t u := by
  obtain ⟨t, ht, rfl⟩ := List.mem_map.1 h
  refine ⟨t, ht, ?_⟩
  split
  · exact .refl t
  · exact ⟨rfl, rfl, rfl, by simp [Table.columnNames, Function.comp_def, demoteColumn_name]⟩

/-- What is in the store after a call was there before, or the call has put it there. -/
theorem step_written (h : u ∈ (step s a).tables) : (∃ t ∈ s.tables, Kept t u) ∨ Writes s a u := by
  have same : u ∈ s.tables → (∃ t ∈ s.tables, Kept t u) ∨ Writes s a u :=
    fun hu => .inl ⟨u, hu, .refl u⟩
  cases a with
  | create d =>
    cases hanswer : (s.create d).result with
    | none => exact same (by rwa [step, create_refused hanswer] at h)
    | some t =>
      obtain ⟨-, -, htables⟩ := create_result_eq_some hanswer
      rw [step, htables, List.mem_append, List.mem_singleton] at h
      exact h.elim same fun hu => .inr (hu ▸ .created hanswer)
  | update id d =>
    cases hanswer : (s.update id d).result with
    | none => exact same (by rwa [step, update_refused hanswer] at h)
    | some t =>
      obtain ⟨old, -, -, htables⟩ := update_result_eq_some hanswer
      rw [step, htables] at h
      rcases mem_replaceFirst h with hu | hu
      · exact .inr (hu ▸ .updated hanswer)
      · exact .inl (kept_of_mem_demoteReferences hu)
  | delete id =>
    cases hget : s.get? id with
    | none => exact same (by rwa [step, (delete_of_get?_none hget).2] at h)
    | some old =>
      rw [step, (delete_of_get? hget).2] at h
      exact .inl (kept_of_mem_demoteReferences (List.mem_filter.1 h).1)
  | importDdl text =>
    cases hanswer : (s.importDdl text).result with
    | error e => exact same (by rwa [step, importDdl_refused hanswer] at h)
    | ok r =>
      rw [step, importDdl_tables (importDdl_result_eq_ok.1 hanswer), List.mem_append] at h
      exact h.elim same fun hu => .inr (.imported hanswer hu)
  | clear => exact absurd h List.not_mem_nil

theorem Writes.mem_step (h : Writes s a t) : t ∈ (step s a).tables := by
  cases h with
  | created answer =>
    rw [step, (create_result_eq_some answer).2.2]
    exact List.mem_append_right _ List.mem_cons_self
  | updated answer =>
    obtain ⟨old, hold, rfl, htables⟩ := update_result_eq_some answer
    obtain ⟨old', hold', hid, -⟩ := mem_demoteReferences old.id (removedColumns old _) false
      (get?_eq_some hold).1
    rw [step, htables]
    exact self_mem_replaceFirst hold' hid
  | imported answer mem =>
    rw [step, importDdl_tables (importDdl_result_eq_ok.1 answer)]
    exact List.mem_append_right _ mem

theorem run_append_singleton (ids : TableId.Supply) (actions : List Action) (a : Action) :
    run ids (actions ++ [a]) = step (run ids actions) a := by
  simp [run]

theorem Writes.mem_run {ids : TableId.Supply} {before : List Action} (h : Writes (run ids before) a t) :
    t ∈ (run ids (before ++ [a])).tables := by
  rw [run_append_singleton]
  exact h.mem_step

/-- Every table of a reachable store was put there by one call of the run, and has been kept since. -/
theorem run_written {ids : TableId.Supply} {actions : List Action} (h : u ∈ (run ids actions).tables) :
    ∃ before a after t, actions = before ++ a :: after ∧ Writes (run ids before) a t ∧ Kept t u := by
  induction actions using List.reverseRecOn generalizing u with
  | nil => exact absurd h List.not_mem_nil
  | append_singleton actions a ih =>
    rw [run_append_singleton] at h
    rcases step_written h with ⟨t, ht, hkept⟩ | hwrites
    · obtain ⟨before, b, after, w, rfl, hwrites, hkept'⟩ := ih ht
      exact ⟨before, b, after ++ [a], w, by simp, hwrites, hkept'.trans hkept⟩
    · exact ⟨actions, a, [], u, rfl, hwrites, .refl u⟩

/-- The draft that a call is made with. -/
def Action.draft? : Action → Option (Draft String)
  | .create d => some d
  | .update _ d => some d
  | _ => none

/-- A draft that is written has passed the gate, and gives its names. -/
theorem Writes.of_draft {d : Draft String} (h : Writes s a t) (hd : a.draft? = some d) :
    Validation.problems d.name d.columns = [] ∧ t.name = d.name ∧
      t.columnNames = d.columns.map (·.name) := by
  cases h with
  | created answer =>
    cases hd
    obtain ⟨hgate, rfl, -⟩ := create_result_eq_some answer
    exact ⟨hgate, rfl, settle_columnNames ..⟩
  | updated answer =>
    cases hd
    obtain ⟨old, -, rfl, -⟩ := update_result_eq_some answer
    exact ⟨update_gate answer, rfl, settle_columnNames ..⟩
  | imported _ _ => cases hd

theorem Writes.of_draft?_eq_none (h : Writes s a t) (hd : a.draft? = none) :
    ∃ text r, a = .importDdl text ∧ (s.importDdl text).result = .ok r ∧ t ∈ r.tables := by
  cases h with
  | created _ => cases hd
  | updated _ => cases hd
  | imported answer mem => exact ⟨_, _, rfl, answer, mem⟩

end SchemaDesign.Store
