import Mathlib.Data.List.Forall2
import Mathlib.Data.List.Nodup
import SchemaDesign.Model.PrimaryKey
import SchemaDesign.Proofs.Validation

/-! What normalising the primary key does to a list of columns, and the law of keys and names that a
table's columns obey once it is done. -/
namespace SchemaDesign

/-- Names that are valid and distinct, types that are there, and one primary key at most, which is
neither nullable nor repeated. -/
structure Column.Keyed (cs : List (Column String)) : Prop where
  names_nodup : (cs.map (·.name)).Nodup
  names_valid : ∀ c ∈ cs, Validation.isValidName c.name = true
  types : ∀ c ∈ cs, c.type ≠ ""
  one_key : cs.countP (·.primaryKey) ≤ 1
  key_strict : ∀ c ∈ cs, c.primaryKey = true → c.nullable = false ∧ c.unique = true

namespace PrimaryKey

variable {cs : List (Column String)} {p : Option String}

/-- What becomes of one column when the key is given to a name. -/
def mark (name : Option String) (c : Column String) : Column String :=
  if name.any (c.name == ·) then { c with primaryKey := true, nullable := false, unique := true }
  else { c with primaryKey := false }

theorem normalise_eq_map : normalise p cs = cs.map (mark (choose p cs)) := rfl

@[simp] theorem mark_name (k : Option String) (c : Column String) : (mark k c).name = c.name := by
  unfold mark; split <;> rfl

@[simp] theorem mark_type (k : Option String) (c : Column String) : (mark k c).type = c.type := by
  unfold mark; split <;> rfl

@[simp] theorem mark_foreignKey (k : Option String) (c : Column String) :
    (mark k c).foreignKey = c.foreignKey := by
  unfold mark; split <;> rfl

@[simp] theorem mark_references (k : Option String) (c : Column String) :
    (mark k c).references = c.references := by
  unfold mark; split <;> rfl

@[simp] theorem mark_typeLength (k : Option String) (c : Column String) :
    (mark k c).typeLength = c.typeLength := by
  unfold mark; split <;> rfl

theorem mark_primaryKey {k : Option String} {c : Column String} :
    (mark k c).primaryKey = true ↔ k = some c.name := by
  unfold mark
  cases k with
  | none => simp
  | some n =>
    by_cases h : c.name = n
    · simp [h]
    · simp [h, Ne.symm h]

theorem mark_of_chosen {k : Option String} {c : Column String} (h : k = some c.name) :
    mark k c = { c with primaryKey := true, nullable := false, unique := true } :=
  if_pos (by simp [h])

theorem mark_of_other {k : Option String} {c : Column String} (h : k ≠ some c.name) :
    mark k c = { c with primaryKey := false } := by
  refine if_neg fun hany => h ?_
  obtain ⟨n, hn, hname⟩ := (Option.any_eq_true _ _).1 hany
  rw [hn, beq_iff_eq.1 hname]

theorem mark_strict {k : Option String} {c : Column String} (h : (mark k c).primaryKey = true) :
    (mark k c).nullable = false ∧ (mark k c).unique = true := by
  unfold mark at h ⊢
  split <;> simp_all

theorem map_name_normalise : (normalise p cs).map (·.name) = cs.map (·.name) := by
  simp [normalise_eq_map, Function.comp_def]

theorem choose_of_named (h : ∃ c ∈ cs, p = some c.name) : choose p cs = p := by
  obtain ⟨c, hc, rfl⟩ := h
  exact if_pos (by simpa using ⟨c, hc, rfl⟩)

theorem choose_of_unnamed (h : ∀ c ∈ cs, p ≠ some c.name) :
    choose p cs = (cs.find? (·.primaryKey)).map (·.name) := by
  have hany : ¬ (p.any fun n => cs.any (·.name == n)) = true := by
    cases p with
    | none => exact Bool.false_ne_true
    | some n => simpa [ne_comm] using h
  rw [choose, if_neg hany, Option.map_eq_bind]
  rfl

theorem choose_eq_none_iff :
    choose p cs = none ↔ ∀ c ∈ cs, p ≠ some c.name ∧ c.primaryKey = false := by
  by_cases hp : ∃ c ∈ cs, p = some c.name
  · obtain ⟨c, hc, hname⟩ := hp
    rw [choose_of_named ⟨c, hc, hname⟩]
    exact ⟨fun hnone => absurd (hname.symm.trans hnone) (Option.some_ne_none _),
      fun h => absurd hname (h c hc).1⟩
  · have hunnamed : ∀ c ∈ cs, p ≠ some c.name := by simpa using hp
    rw [choose_of_unnamed hunnamed, Option.map_eq_none_iff, List.find?_eq_none]
    exact ⟨fun h c hc => ⟨hunnamed c hc, by simpa using h c hc⟩, fun h c hc => by simp [(h c hc).2]⟩

/-- The key is chosen among the columns. -/
theorem choose_mem {name : String} (h : choose p cs = some name) : name ∈ cs.map (·.name) := by
  unfold choose at h
  split at h
  · next hp =>
    rw [h] at hp
    simpa using hp
  · obtain ⟨c, hc, hname⟩ := Option.bind_eq_some_iff.1 h
    rw [Label.chosen_string, Option.some.injEq] at hname
    exact List.mem_map.2 ⟨c, List.mem_of_find?_eq_some hc, hname⟩

/-- Of columns that differ in name at most one has a given name. -/
theorem countP_name_le_one {q : Column String → Bool} (name : String)
    (hn : (cs.map (·.name)).Nodup) (h : ∀ c ∈ cs, q c = true → c.name = name) : cs.countP q ≤ 1 := by
  have hf : ((cs.filter q).map (·.name)).Nodup := hn.sublist (List.filter_sublist.map _)
  have he : (cs.filter q).map (·.name) = List.replicate (cs.countP q) name := by
    rw [List.eq_replicate_iff]
    refine ⟨by simp [List.countP_eq_length_filter], fun b hb => ?_⟩
    obtain ⟨c, hc, rfl⟩ := List.mem_map.1 hb
    exact h c (List.mem_filter.1 hc).1 (List.mem_filter.1 hc).2
  rw [he] at hf
  exact List.nodup_replicate.1 hf

/-- One column is flagged, or none where no name is chosen. -/
theorem countP_normalise (hn : (cs.map (·.name)).Nodup) :
    (normalise p cs).countP (·.primaryKey) = if choose p cs = none then 0 else 1 := by
  cases hk : choose p cs with
  | none =>
    rw [if_pos rfl, List.countP_eq_zero, normalise_eq_map, List.forall_mem_map]
    intro c _
    rw [mark_primaryKey, hk]
    exact nofun
  | some name =>
    rw [if_neg (Option.some_ne_none name)]
    refine Nat.le_antisymm (countP_name_le_one name (by rwa [map_name_normalise]) ?_) ?_
    · rw [normalise_eq_map, List.forall_mem_map]
      intro c _ h
      have h := mark_primaryKey.1 h
      rw [hk] at h
      rw [mark_name]
      exact (Option.some.inj h).symm
    · obtain ⟨c, hc, rfl⟩ := List.mem_map.1 (choose_mem hk)
      rw [normalise_eq_map]
      exact List.countP_pos_iff.2 ⟨_, List.mem_map_of_mem hc, mark_primaryKey.2 hk⟩

theorem keyed_normalise (hn : (cs.map (·.name)).Nodup)
    (hv : ∀ c ∈ cs, Validation.isValidName c.name = true) (ht : ∀ c ∈ cs, c.type ≠ "") :
    Column.Keyed (normalise p cs) where
  names_nodup := by rwa [map_name_normalise]
  names_valid := by
    rw [normalise_eq_map, List.forall_mem_map]
    intro c hc
    rw [mark_name]
    exact hv c hc
  types := by
    rw [normalise_eq_map, List.forall_mem_map]
    intro c hc
    rw [mark_type]
    exact ht c hc
  one_key := by
    rw [countP_normalise hn]
    split <;> omega
  key_strict := by
    rw [normalise_eq_map, List.forall_mem_map]
    exact fun c _ h => mark_strict h

end PrimaryKey

namespace Column.Keyed

variable {cs : List (Column String)}

/-- A change of columns that leaves names, types and key flags alone, and keeps keys strict. -/
theorem map {f : Column String → Column String} (h : Keyed cs) (hname : ∀ c, (f c).name = c.name)
    (htype : ∀ c, (f c).type = c.type) (hkey : ∀ c, (f c).primaryKey = c.primaryKey)
    (hstrict : ∀ c, c.primaryKey = true → c.nullable = false → c.unique = true →
      (f c).nullable = false ∧ (f c).unique = true) : Keyed (cs.map f) where
  names_nodup := by simpa [Function.comp_def, hname] using h.names_nodup
  names_valid := by simpa [hname] using h.names_valid
  types := by simpa [htype] using h.types
  one_key := by simpa [List.countP_map, Function.comp_def, hkey] using h.one_key
  key_strict := by
    rw [List.forall_mem_map]
    intro c hc hp
    rw [hkey] at hp
    have hs := h.key_strict c hc hp
    exact hstrict c hp hs.1 hs.2

/-- The key of a table is the name of its flagged column. -/
theorem primaryKey_eq_some {t : Table String} (h : Keyed t.columns) {c : Column String}
    (hc : c ∈ t.columns) (hp : c.primaryKey = true) : t.primaryKey = some c.name := by
  obtain ⟨d, hd⟩ := Option.isSome_iff_exists.1 (List.find?_isSome.2 ⟨c, hc, hp⟩)
  have hdm := List.mem_of_find?_eq_some hd
  have hdp : d.primaryKey = true := by simpa using List.find?_some hd
  have hone : d = c := by
    have hcount := h.one_key
    rw [List.countP_eq_length_filter] at hcount
    have hcf := List.mem_filter.2 ⟨hc, hp⟩
    have hdf := List.mem_filter.2 ⟨hdm, hdp⟩
    match hl : t.columns.filter (·.primaryKey) with
    | [] => simp [hl] at hcf
    | [e] =>
      rw [hl, List.mem_singleton] at hcf hdf
      rw [hcf, hdf]
    | _ :: _ :: _ => simp [hl] at hcount
  simp [Table.primaryKey, hd, hone]

/-- The key of a table names its flagged column and no other. -/
theorem primaryKey_eq_some_iff {t : Table String} (h : Keyed t.columns) {c : Column String}
    (hc : c ∈ t.columns) : t.primaryKey = some c.name ↔ c.primaryKey = true := by
  refine ⟨fun hkey => ?_, h.primaryKey_eq_some hc⟩
  obtain ⟨d, hd, hname⟩ := Option.bind_eq_some_iff.1 hkey
  rw [Label.chosen_string, Option.some.injEq] at hname
  obtain rfl : d = c := List.inj_on_of_nodup_map h.names_nodup (List.mem_of_find?_eq_some hd) hc hname
  exact List.find?_some hd

/-- A column stays as it is when the key is given to the column that has it. -/
theorem mark_primaryKey {t : Table String} (h : Keyed t.columns) {c : Column String}
    (hc : c ∈ t.columns) : PrimaryKey.mark t.primaryKey c = c := by
  have hkey := h.primaryKey_eq_some_iff hc
  cases hp : c.primaryKey with
  | true =>
    obtain ⟨hnull, huniq⟩ := h.key_strict c hc hp
    rw [PrimaryKey.mark_of_chosen (hkey.2 hp)]
    cases c
    simp_all
  | false =>
    have hother : t.primaryKey ≠ some c.name := fun hk =>
      Bool.false_ne_true (hp.symm.trans (hkey.1 hk))
    rw [PrimaryKey.mark_of_other hother, ← hp]

/-- Columns that obey the law stay as they are when the key that they have is chosen again. -/
theorem normalise_primaryKey {t : Table String} (h : Keyed t.columns) :
    PrimaryKey.normalise t.primaryKey t.columns = t.columns := by
  have hchoose : PrimaryKey.choose t.primaryKey t.columns = t.primaryKey := by
    unfold PrimaryKey.choose
    split <;> rfl
  rw [PrimaryKey.normalise_eq_map, hchoose, List.map_congr_left fun c hc => h.mark_primaryKey hc,
    List.map_id']

end Column.Keyed

theorem Table.primaryKey_eq_none {t : Table String} :
    t.primaryKey = none ↔ ∀ c ∈ t.columns, c.primaryKey = false := by
  cases h : t.columns.find? (·.primaryKey) with
  | none => simpa [Table.primaryKey, h] using List.find?_eq_none.1 h
  | some c =>
    have hp : c.primaryKey = true := by simpa using List.find?_some h
    simpa [Table.primaryKey, h] using ⟨c, List.mem_of_find?_eq_some h, hp⟩

/-- One column is flagged, or none where the table has no key. -/
theorem Column.Keyed.countP_primaryKey {t : Table String} (h : Column.Keyed t.columns) :
    t.columns.countP (·.primaryKey) = if t.primaryKey = none then 0 else 1 := by
  split
  · next hnone => simpa [List.countP_eq_zero] using Table.primaryKey_eq_none.1 hnone
  · next hsome =>
    have hpos : 0 < t.columns.countP (·.primaryKey) := by
      rw [List.countP_pos_iff]
      by_contra hall
      exact hsome (Table.primaryKey_eq_none.2 (by simpa using hall))
    exact Nat.le_antisymm h.one_key hpos

/-- The key of a table whose flags stand at one name. -/
theorem Table.primaryKey_eq {t : Table String} {key : Option String}
    (hflag : ∀ c ∈ t.columns, c.primaryKey = true ↔ key = some c.name)
    (hmem : ∀ name, key = some name → name ∈ t.columnNames) : t.primaryKey = key := by
  cases key with
  | none => exact Table.primaryKey_eq_none.2 fun c hc => by simpa using hflag c hc
  | some name =>
    obtain ⟨c, hc, rfl⟩ := List.mem_map.1 (hmem name rfl)
    have hsome := List.find?_isSome.2 ⟨c, hc, (hflag c hc).2 rfl⟩
    obtain ⟨d, hd⟩ := Option.isSome_iff_exists.1 hsome
    have hname := (hflag d (List.mem_of_find?_eq_some hd)).1 (List.find?_some hd)
    rw [Table.primaryKey, hd, Option.bind_some, Label.chosen_string, hname]

/-- The key of a table whose columns are normalised is the name that was chosen. -/
theorem Table.primaryKey_normalise {p : Option String} (t : Table String) :
    { t with columns := PrimaryKey.normalise p t.columns }.primaryKey =
      PrimaryKey.choose p t.columns := by
  refine Table.primaryKey_eq (fun c hc => ?_) fun name hname => ?_
  · obtain ⟨d, -, rfl⟩ := List.mem_map.1 (PrimaryKey.normalise_eq_map ▸ hc)
    exact PrimaryKey.mark_primaryKey.trans (by rw [PrimaryKey.mark_name])
  · show name ∈ (PrimaryKey.normalise p t.columns).map (·.name)
    rw [PrimaryKey.map_name_normalise]
    exact PrimaryKey.choose_mem hname

/-- Tables whose columns agree in names and flags have the same key. -/
theorem Table.primaryKey_congr {t u : Table String} (h : List.Forall₂
    (fun c d : Column String => d.name = c.name ∧ d.primaryKey = c.primaryKey) t.columns u.columns) :
    u.primaryKey = t.primaryKey := by
  unfold Table.primaryKey
  generalize t.columns = cs, u.columns = ds at h
  induction h with
  | nil => rfl
  | cons hc _ ih =>
    obtain ⟨hname, hkey⟩ := hc
    rw [List.find?_cons, List.find?_cons, hkey]
    split
    · simp only [Option.bind_some, hname]
    · exact ih

end SchemaDesign
