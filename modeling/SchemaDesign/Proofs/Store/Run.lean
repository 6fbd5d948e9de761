import SchemaDesign.Proofs.Ddl.Report
import SchemaDesign.Store.Commit

/-! Runs of a store: any calls with any arguments, one after another, from the empty store. What one
call can do is said once, as a relation; laws of all reachable stores follow by induction. -/
namespace SchemaDesign.Store

inductive Action where
  | create (draft : Draft String)
  | update (id : String) (draft : Draft String)
  | delete (id : String)
  | importDdl (text : String)
  | clear

/-- The store after one call, whether it answers or is refused. -/
def step (s : Store String) : Action → Store String
  | .create d => (s.create d).store
  | .update id d => (s.update id d).store
  | .delete id => (s.delete id).store
  | .importDdl text => (s.importDdl text).store
  | .clear => s.clear

def run (ids : TableId.Supply) (actions : List Action) : Store String :=
  actions.foldl step (empty ids)

/-- The store in which the references to the columns that a draft takes from a table are demoted. -/
def beforeUpdate (s : Store String) (old : Table String) (d : Draft String) : Store String :=
  { s with tables := demoteReferences old.id (removedColumns old d) false s.tables }

/-- The ways in which a call can change a store, with what it has checked before. -/
inductive Changes (s : Store String) : Store String → Prop
  | given (count : Nat) : Changes s { s with ids := s.ids.drop count }
  | created (d : Draft String) (gate : Validation.problems d.name d.columns = []) :
      Changes s ⟨s.tables ++ [s.settle s.ids.first d], s.ids.drop 1⟩
  | updated (old : Table String) (d : Draft String) (found : s.get? old.id = some old)
      (gate : Validation.problems d.name d.columns = []) :
      Changes s { s with
        tables := replaceFirst ((s.beforeUpdate old d).settle old.id d)
          (s.beforeUpdate old d).tables }
  | deleted (t : Table String) (found : s.get? t.id = some t) :
      Changes s { s with
        tables := (demoteReferences t.id t.columns true s.tables).filter fun u => !(u.id == t.id) }
  | imported (text : String) (r : Ddl.Report) (found : Ddl.read s.ids text = .ok r) :
      Changes s ⟨s.tables ++ r.tables, s.ids.drop r.tables.length⟩
  | cleared : Changes s { s with tables := [] }

theorem get?_eq_some {s : Store String} {id : String} {t : Table String} (h : s.get? id = some t) :
    t ∈ s.tables ∧ t.id = id :=
  ⟨List.mem_of_find?_eq_some h, by simpa using List.find?_some h⟩

theorem map_ofText (t : Table String) : t.map Label.ofText = t := by
  cases t
  simp [Table.map, Column.map, Reference.map, Label.ofText]

theorem step_changes (s : Store String) (a : Action) : Changes s (step s a) := by
  have same : Changes s s := .given 0
  cases a with
  | create d =>
    simp only [step, create]
    split
    · next h => exact .created d h
    · exact same
  | update id d =>
    simp only [step, update]
    split
    · exact same
    · next old hold =>
      split
      · next h => exact .updated old d ((get?_eq_some hold).2 ▸ hold) h
      · exact same
  | delete id =>
    simp only [step, delete]
    split
    · exact same
    · next t ht =>
      obtain ⟨-, rfl⟩ := get?_eq_some ht
      exact .deleted t ht
  | importDdl text =>
    simp only [step, importDdl]
    split
    · next r hr =>
      have := Changes.imported text r hr
      simpa [map_ofText] using this
    · exact .given _
  | clear => exact .cleared

/-- What holds of the empty store and outlives every change holds after every run. -/
theorem run_keeps {P : Store String → Prop} {ids : TableId.Supply} (init : P (empty ids))
    (keeps : ∀ s s', P s → Changes s s' → P s') (actions : List Action) : P (run ids actions) := by
  suffices ∀ s, P s → P (actions.foldl step s) from this (empty ids) init
  induction actions with
  | nil => exact fun s hs => hs
  | cons a actions ih => exact fun s hs => ih _ (keeps s _ hs (step_changes s a))

end SchemaDesign.Store
