import SchemaDesign.Proofs.Export.Extension
import SchemaDesign.Proofs.Store.Written

/-! Calls that only add tables. In a store that calls can reach a reference that is set leads to a column
already, so an added table gives none of them a new target, and the code of the tables that were there
stays as it is. -/
namespace SchemaDesign

/-- A column that resolves among some tables does so among more of them, if their ids differ. -/
theorem Column.target?_append {ts us : List (Table String)} {c : Column String} {d : Table String}
    (hn : ((ts ++ us).map (·.id)).Nodup) (h : c.target? ts = some d) :
    c.target? (ts ++ us) = some d := by
  obtain ⟨hf, hd, hid, hcol⟩ := Column.target?_eq_some h
  have hset : c.references.isSet = true := by
    by_contra hset
    rw [Column.target?, hf, Bool.eq_false_iff.2 hset] at h
    cases h
  exact Column.target?_of_reference hn hf (List.mem_append_left us hd) hid hcol hset

namespace Store

variable {s : Store String} {added : List (Table String)}

/-- Tables are put behind the old ones, whose foreign keys lead where they led and whose code stays. -/
structure Extends (old added new : List (Table String)) : Prop where
  tables : new = old ++ added
  targets : ∀ t ∈ old, ∀ c ∈ t.columns, c.target? new = c.target? old
  sql : Export.Sql.generate new =
    Export.Sql.generate old ++ Text.concat (added.map (Export.Sql.createTable new))
  jpa : ∀ package, Export.Jpa.generate package new =
    Export.Jpa.generate package old ++ Text.concat (added.map (Export.Jpa.entity new))

/-- Whatever is added to the tables of a whole store, none of their columns finds another target. -/
theorem Whole.sameTargets (h : s.Whole) (hk : s.Keyed)
    (hn : ((s.tables ++ added).map (·.id)).Nodup) {t : Table String} (ht : t ∈ s.tables) :
    t.SameTargets s.tables (s.tables ++ added) := by
  intro c hc
  cases htarget : c.target? s.tables with
  | some d => exact Column.target?_append hn htarget
  | none =>
    -- a reference that found nothing is not there at all, so it finds nothing later either
    rcases (h.target?_eq_none hk ht hc).1 htarget with hf | hr
    · simp [Column.target?, hf]
    · exact Column.target?_of_unset hr

theorem Whole.extends_append (h : s.Whole) (hk : s.Keyed)
    (hn : ((s.tables ++ added).map (·.id)).Nodup) :
    Extends s.tables added (s.tables ++ added) := by
  have hsame : ∀ t ∈ s.tables, t.SameTargets s.tables (s.tables ++ added) :=
    fun t ht => h.sameTargets hk hn ht
  exact ⟨rfl, hsame, Export.Sql.generate_append hsame, Export.Jpa.generate_append hsame⟩

/-- A call on a reachable store that puts tables behind the others extends its code. -/
theorem run_extends (ids : TableId.Supply) (actions : List Action) {a : Action}
    (htables : (step (run ids actions) a).tables = (run ids actions).tables ++ added) :
    Extends (run ids actions).tables added (step (run ids actions) a).tables := by
  have hn := (run_whole ids (actions ++ [a])).ids_nodup
  rw [run_append_singleton, htables] at hn
  rw [htables]
  exact (run_whole ids actions).extends_append (run_keyed ids actions) hn

/-- Adding tables never changes the code of those that are there. On every reachable store a creation
that is not refused extends the code by the block of the table it answers with, and an import that does
not break off by those of the tables it reports; one that breaks off adds none. -/
theorem adding_extends (ids : TableId.Supply) (actions : List Action) :
    (∀ d t, ((run ids actions).create d).result = some t →
      Extends (run ids actions).tables [t] ((run ids actions).create d).store.tables) ∧
    (∀ text r, ((run ids actions).importDdl text).result = .ok r →
      Extends (run ids actions).tables r.tables ((run ids actions).importDdl text).store.tables) ∧
    (∀ text e, ((run ids actions).importDdl text).result = .error e →
      ((run ids actions).importDdl text).store.tables = (run ids actions).tables) := by
  refine ⟨fun d t h => ?_, fun text r h => ?_, fun text e h => importDdl_refused h⟩
  · exact run_extends ids actions (a := .create d) (create_result_eq_some h).2.2
  · exact run_extends ids actions (a := .importDdl text)
      (importDdl_tables (importDdl_result_eq_ok.1 h))

/-- A table with one foreign key that leads into another table and one that leads to a table which is
not there yet. -/
def awaitingRun : List Action :=
  [.create ⟨"users", "", [⟨"id", "int", none, false, true, true, false, Reference.unset⟩], none⟩,
   .create ⟨"posts", "",
      [⟨"author", "int", none, true, false, false, true, ⟨TableId.ofNumber 1, "id"⟩⟩,
       ⟨"tag", "int", none, true, false, false, true, ⟨TableId.ofNumber 3, "id"⟩⟩], none⟩]

/-- The draft that gets the id and has the column that the second key has asked for. -/
def awaitedTags : Draft String :=
  ⟨"tags", "", [⟨"id", "int", none, false, true, true, false, Reference.unset⟩], none⟩

theorem adding_extends_awaitingRun :
    (∃ t, ((run .counter awaitingRun).create awaitedTags).result = some t ∧ t.id = TableId.ofNumber 3 ∧
      Extends (run .counter awaitingRun).tables [t]
        ((run .counter awaitingRun).create awaitedTags).store.tables) ∧
    ∃ r, ((run .counter awaitingRun).importDdl "CREATE TABLE tags (id INT PRIMARY KEY);").result = .ok r ∧
      r.tables.length = 1 ∧ Extends (run .counter awaitingRun).tables r.tables
        ((run .counter awaitingRun).importDdl "CREATE TABLE tags (id INT PRIMARY KEY);").store.tables := by
  obtain ⟨hcreate, himport, -⟩ := adding_extends .counter awaitingRun
  have hid : ((run .counter awaitingRun).create awaitedTags).result.map (·.id) =
      some (TableId.ofNumber 3) := by decide +kernel
  have hread : ((run .counter awaitingRun).importDdl "CREATE TABLE tags (id INT PRIMARY KEY);").result.map
      (·.tables.length) = .ok 1 := by decide +kernel
  obtain ⟨t, ht, hid⟩ := Option.map_eq_some_iff.1 hid
  obtain ⟨r, hr, hlength⟩ := map_eq_ok.1 hread
  exact ⟨⟨t, ht, hid, hcreate _ t ht⟩, r, hr, hlength, himport _ r hr⟩

end Store

end SchemaDesign
