import Mathlib.Data.List.Nodup
import SchemaDesign.Model.ForeignKey

/-! Finding the table and the column that a reference names. -/
namespace SchemaDesign

namespace Table

variable {ts : List (Table String)}

theorem column?_isSome {t : Table String} {name : String} :
    (t.column? name).isSome = true ↔ name ∈ t.columnNames := by
  simp [column?, columnNames]

theorem eq_of_id_eq {t u : Table String} (hn : (ts.map (·.id)).Nodup) (ht : t ∈ ts) (hu : u ∈ ts)
    (h : t.id = u.id) : t = u := List.inj_on_of_nodup_map hn ht hu h

theorem withId?_mem {t : Table String} {id : String} (h : withId? ts id = some t) :
    t ∈ ts ∧ t.id = id := by
  rw [withId?, List.findRev?_eq_find?_reverse] at h
  exact ⟨List.mem_reverse.1 (List.mem_of_find?_eq_some h), by simpa using List.find?_some h⟩

theorem withId?_eq_some (hn : (ts.map (·.id)).Nodup) {t : Table String} (ht : t ∈ ts) :
    withId? ts t.id = some t := by
  have hsome : (withId? ts t.id).isSome = true := by
    simpa [withId?] using ⟨t, ht, rfl⟩
  obtain ⟨u, hu⟩ := Option.isSome_iff_exists.1 hsome
  obtain ⟨hmem, hid⟩ := withId?_mem hu
  rw [hu, eq_of_id_eq hn hmem ht hid]

end Table

namespace Column

variable {ts : List (Table String)} {c : Column String} {d : Table String}

/-- A reference that resolves is that of a foreign key, and leads to a column of a table. -/
theorem target?_eq_some (h : c.target? ts = some d) :
    c.foreignKey = true ∧ d ∈ ts ∧ d.id = c.references.tableId ∧
      c.references.columnName ∈ d.columnNames := by
  unfold target? at h
  split at h
  · next hset =>
    rw [Option.filter_eq_some_iff] at h
    obtain ⟨hd, hcol⟩ := h
    obtain ⟨hmem, hid⟩ := Table.withId?_mem hd
    exact ⟨(Bool.and_eq_true_iff.1 hset).1, hmem, hid, Table.column?_isSome.1 hcol⟩
  · cases h

/-- A reference that resolves leads to the table that is found under the id of its target. -/
theorem withId?_of_target? (h : c.target? ts = some d) : Table.withId? ts d.id = some d := by
  unfold target? at h
  split at h
  · obtain ⟨hd, -⟩ := (Option.filter_eq_some_iff ..).1 h
    rw [(Table.withId?_mem hd).2]
    exact hd
  · cases h

theorem target?_of_reference (hn : (ts.map (·.id)).Nodup) (hf : c.foreignKey = true) (hd : d ∈ ts)
    (hid : d.id = c.references.tableId) (hcol : c.references.columnName ∈ d.columnNames)
    (hset : c.references.isSet = true) : c.target? ts = some d := by
  have hcol := Table.column?_isSome.2 hcol
  simp [target?, hf, hset, ← hid, Table.withId?_eq_some hn hd, Option.filter, hcol]

theorem target?_of_unset (hr : c.references = Reference.unset) : c.target? ts = none := by
  have hset : c.references.isSet = false := by rw [hr]; rfl
  simp [target?, hset]

end Column

end SchemaDesign
