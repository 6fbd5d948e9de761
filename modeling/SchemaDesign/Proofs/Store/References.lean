import SchemaDesign.Proofs.Lists
import SchemaDesign.Proofs.Model.Reference
import SchemaDesign.Proofs.Model.TableId
import SchemaDesign.Proofs.Store.Keys

/-! References in every store that calls can reach: each is empty or leads from a foreign key to a
column of a table in the store. -/
namespace SchemaDesign.Store

/-- A reference leads to a column of one of the tables. -/
def Leads (ts : List (Table String)) (r : Reference String) : Prop :=
  ∃ u ∈ ts, u.id = r.tableId ∧ r.columnName ∈ u.columnNames

/-- A column holds the empty reference, or is a foreign key whose reference leads to a column. -/
def Linked (ts : List (Table String)) (c : Column String) : Prop :=
  c.references = Reference.unset ∨ c.foreignKey = true ∧ Leads ts c.references

/-- Every table has an id of its own that has been given out, and every column is linked. -/
structure Whole (s : Store String) : Prop where
  ids_nodup : (s.tables.map (·.id)).Nodup
  ids_given : ∀ t ∈ s.tables, s.ids.Given t.id
  linked : ∀ t ∈ s.tables, ∀ c ∈ t.columns, Linked s.tables c

variable {s : Store String} {ts us : List (Table String)}

theorem Leads.mono {r : Reference String} (h : Leads ts r)
    (hsub : ∀ t ∈ ts, ∃ u ∈ us, u.id = t.id ∧ (r.columnName ∈ t.columnNames →
      r.columnName ∈ u.columnNames)) : Leads us r := by
  obtain ⟨t, ht, hid, hcol⟩ := h
  obtain ⟨u, hu, hui, huc⟩ := hsub t ht
  exact ⟨u, hu, hui.trans hid, huc hcol⟩

theorem Linked.append {c : Column String} (h : Linked ts c) : Linked (ts ++ us) c :=
  h.imp_right fun ⟨hf, hl⟩ =>
    ⟨hf, hl.mono fun t ht => ⟨t, List.mem_append_left us ht, rfl, id⟩⟩

/-- A reference that a draft may keep leads to a column of its own table or of another one. -/
theorem leadsTo_eq_true {owner : String} {cs : List (Column String)} {r : Reference String}
    (h : s.leadsTo owner cs r = true) :
    r.tableId = owner ∧ r.columnName ∈ cs.map (·.name) ∨
      r.tableId ≠ owner ∧ ∃ t ∈ s.tables, t.id = r.tableId ∧ r.columnName ∈ t.columnNames := by
  unfold leadsTo at h
  have h := (Bool.and_eq_true_iff.1 h).2
  split at h
  · next ho => exact .inl ⟨by simpa using ho, by simpa using h⟩
  · next ho =>
    cases hg : s.get? r.tableId with
    | none => simp [hg] at h
    | some t =>
      obtain ⟨hmem, hid⟩ := get?_eq_some hg
      rw [hg] at h
      exact .inr ⟨by simpa using ho, t, hmem, hid, Table.column?_isSome.1 h⟩

/-- The columns of a settled draft are linked among tables that hold the settled table itself and
agree with the store on all others. -/
theorem linked_settle {id : String} {d : Draft String} (hself : s.settle id d ∈ ts)
    (hothers : ∀ t ∈ s.tables, t.id ≠ id → t ∈ ts) :
    ∀ c ∈ (s.settle id d).columns, Linked ts c := by
  have hnames : (s.settle id d).columnNames =
      (PrimaryKey.normalise d.primaryKey d.columns).map (·.name) := by
    simp [settle, sanitise_eq_map, Table.columnNames, Function.comp_def]
  have hcols : (s.settle id d).columns =
      s.sanitise id (PrimaryKey.normalise d.primaryKey d.columns) := rfl
  rw [hcols, sanitise_eq_map, List.forall_mem_map]
  intro c _
  by_cases hkeep : c.foreignKey = true ∧
      s.dangles id (PrimaryKey.normalise d.primaryKey d.columns) c = false
  · obtain ⟨hf, hd⟩ := hkeep
    by_cases hu : c.references.isUnset = true
    · left
      have : c.references = Reference.unset := by
        cases hr : c.references with
        | mk a b => simpa [Reference.isUnset, Reference.unset, hr] using hu
      simp [this]
    · have hl : s.leadsTo id (PrimaryKey.normalise d.primaryKey d.columns) c.references = true := by
        simpa [dangles, hf, hu] using hd
      refine .inr ⟨hf, ?_⟩
      simp only [hf, hd, Bool.not_true, Bool.or_self, Bool.false_eq_true, if_false]
      rcases leadsTo_eq_true hl with ⟨ho, hcol⟩ | ⟨ho, t, ht, hid, hcol⟩
      · exact ⟨_, hself, ho.symm, hnames ▸ hcol⟩
      · exact ⟨t, hothers t ht (hid ▸ ho), hid, hcol⟩
  · left
    have : (!c.foreignKey || s.dangles id (PrimaryKey.normalise d.primaryKey d.columns) c) = true := by
      cases hf : c.foreignKey <;> simp_all
    simp [this]

theorem map_id_demoteReferences (target : String) (removed : List (Column String)) (whole : Bool)
    (ts : List (Table String)) :
    (demoteReferences target removed whole ts).map (·.id) = ts.map (·.id) := by
  unfold demoteReferences
  rw [List.map_map]
  refine List.map_congr_left fun t _ => ?_
  dsimp only [Function.comp]
  split <;> rfl

/-- The tables after a demotion have the ids and the column names that they had before. -/
theorem mem_demoteReferences (target : String) (removed : List (Column String)) (whole : Bool)
    {t : Table String} (ht : t ∈ ts) :
    ∃ u ∈ demoteReferences target removed whole ts, u.id = t.id ∧ u.columnNames = t.columnNames := by
  refine ⟨_, List.mem_map_of_mem ht, ?_⟩
  split
  · exact ⟨rfl, rfl⟩
  · exact ⟨rfl, by simp [Table.columnNames, Function.comp_def, demoteColumn_name]⟩

theorem eq_of_mem_demoteReferences {target : String} {removed : List (Column String)} {whole : Bool}
    {t : Table String} (ht : t ∈ demoteReferences target removed whole ts) (hne : t.id ≠ target) :
    ∃ u ∈ ts, t.columns = u.columns.map (demoteColumn target removed whole) := by
  obtain ⟨u, hu, rfl⟩ := List.mem_map.1 ht
  refine ⟨u, hu, ?_⟩
  split
  · next h => simp_all
  · rfl

theorem map_id_replaceFirst (t : Table String) (ts : List (Table String)) :
    (replaceFirst t ts).map (·.id) = ts.map (·.id) := by
  induction ts with
  | nil => rfl
  | cons u ts ih =>
    unfold replaceFirst
    split
    · next h => simp_all
    · simp [ih]

theorem mem_replaceFirst_of_ne {t u : Table String} (hu : u ∈ ts) (hne : u.id ≠ t.id) :
    u ∈ replaceFirst t ts := by
  induction ts with
  | nil => exact hu
  | cons v ts ih =>
    unfold replaceFirst
    rcases List.mem_cons.1 hu with rfl | hu
    · simp [hne]
    · split
      · exact List.mem_cons_of_mem _ hu
      · exact List.mem_cons_of_mem _ (ih hu)

theorem self_mem_replaceFirst {t u : Table String} (hu : u ∈ ts) (hid : u.id = t.id) :
    t ∈ replaceFirst t ts := by
  induction ts with
  | nil => simp at hu
  | cons v ts ih =>
    unfold replaceFirst
    split
    · exact List.mem_cons_self
    · next hv =>
      rcases List.mem_cons.1 hu with rfl | hu
      · exact absurd (by simpa using hid) hv
      · exact List.mem_cons_of_mem _ (ih hu)

/-- Where ids differ, the tables behind the replaced one are those of other ids. -/
theorem mem_replaceFirst_of_nodup {t u : Table String} (hn : (ts.map (·.id)).Nodup)
    (h : u ∈ replaceFirst t ts) : u = t ∨ u ∈ ts ∧ u.id ≠ t.id := by
  induction ts with
  | nil => simp [replaceFirst] at h
  | cons v ts ih =>
    rw [List.map_cons, List.nodup_cons] at hn
    unfold replaceFirst at h
    split at h
    · next hv =>
      have hv : v.id = t.id := by simpa using hv
      rcases List.mem_cons.1 h with rfl | h
      · exact .inl rfl
      · refine .inr ⟨List.mem_cons_of_mem _ h, fun he => hn.1 ?_⟩
        rw [hv, ← he]
        exact List.mem_map_of_mem h
    · next hv =>
      rcases List.mem_cons.1 h with rfl | h
      · exact .inr ⟨List.mem_cons_self, by simpa using hv⟩
      · exact (ih hn.2 h).imp_right fun ⟨hm, hne⟩ => ⟨List.mem_cons_of_mem _ hm, hne⟩

/-- A column of another table stays linked when the references into a table are demoted, if each
column that keeps its reference finds its target among the new tables. -/
theorem linked_demoteColumn {target : String} {removed : List (Column String)} {whole : Bool}
    {c : Column String} (h : Linked ts c)
    (hkept : isHit target removed whole c = false → c.foreignKey = true → Leads ts c.references →
      Leads us c.references) : Linked us (demoteColumn target removed whole c) := by
  unfold demoteColumn
  split
  · exact .inl rfl
  · next hh =>
    exact h.imp_right fun ⟨hf, hl⟩ => ⟨hf, hkept (by simpa using hh) hf hl⟩

theorem isHit_eq_false {target : String} {removed : List (Column String)} {whole : Bool}
    {c : Column String} (h : isHit target removed whole c = false) (hf : c.foreignKey = true)
    (ht : c.references.tableId = target) :
    whole = false ∧ c.references.columnName ∉ removed.map (·.name) := by
  have h : nullability? removed c.references.columnName = none ∧ whole = false := by
    simpa [isHit, hf, ht] using h
  have hn : ∀ d ∈ removed, d.name ≠ c.references.columnName := by simpa [nullability?] using h.1
  exact ⟨h.2, fun hm => by obtain ⟨d, hd, he⟩ := List.mem_map.1 hm; exact hn d hd he⟩

theorem settle_columnNames (s : Store String) (id : String) (d : Draft String) :
    (s.settle id d).columnNames = d.columns.map (·.name) := by
  rw [← PrimaryKey.map_name_normalise (p := d.primaryKey)]
  simp [settle, sanitise_eq_map, Table.columnNames, Function.comp_def]

theorem mem_columnNames_settle {old : Table String} {d : Draft String} {id name : String}
    (ht : name ∈ old.columnNames) (hr : name ∉ (removedColumns old d).map (·.name)) :
    name ∈ (s.settle id d).columnNames := by
  obtain ⟨c, hc, rfl⟩ := List.mem_map.1 ht
  have hkept : d.columns.any (·.name == c.name) = true := by
    by_contra hn
    exact hr (List.mem_map.2 ⟨c, by simp [removedColumns, hc, hn], rfl⟩)
  obtain ⟨e, he, hne⟩ := List.any_eq_true.1 hkept
  have hne : e.name = c.name := by simpa using hne
  rw [settle_columnNames, ← hne]
  exact List.mem_map_of_mem he

theorem Whole.created (h : s.Whole) (d : Draft String) :
    Whole ⟨s.tables ++ [s.settle s.ids.first d], s.ids.drop 1⟩ where
  ids_nodup := by
    rw [List.map_append, List.nodup_append]
    refine ⟨h.ids_nodup, by simp, ?_⟩
    rintro a ha b hb rfl
    obtain ⟨t, ht, rfl⟩ := List.mem_map.1 ha
    have hb : t.id = s.ids.first := by simpa [settle] using hb
    exact (h.ids_given t ht).past 0 hb.symm
  ids_given := by
    intro t ht
    rcases List.mem_append.1 ht with ht | ht
    · exact (h.ids_given t ht).drop 1
    · rw [List.mem_singleton.1 ht]
      exact s.ids.given_first
  linked := by
    intro t ht c hc
    rcases List.mem_append.1 ht with ht | ht
    · exact (h.linked t ht c hc).append
    · rw [List.mem_singleton.1 ht] at hc
      exact linked_settle (by simp) (fun u hu _ => List.mem_append_left _ hu) c hc

theorem Whole.updated (h : s.Whole) {old : Table String} (hold : old ∈ s.tables) (d : Draft String) :
    Whole { s with
      tables := replaceFirst ((s.beforeUpdate old d).settle old.id d) (s.beforeUpdate old d).tables } := by
  have hids : (s.beforeUpdate old d).tables.map (·.id) = s.tables.map (·.id) :=
    map_id_demoteReferences ..
  have hnodup : ((s.beforeUpdate old d).tables.map (·.id)).Nodup := hids ▸ h.ids_nodup
  obtain ⟨old', hold', hid', -⟩ :=
    mem_demoteReferences old.id (removedColumns old d) false hold
  have hself := self_mem_replaceFirst (t := (s.beforeUpdate old d).settle old.id d) hold' hid'
  constructor
  · rw [map_id_replaceFirst, hids]
    exact h.ids_nodup
  · intro t ht
    have ht : t.id ∈ s.tables.map (·.id) := by
      rw [← hids, ← map_id_replaceFirst]
      exact List.mem_map_of_mem ht
    obtain ⟨u, hu, hid⟩ := List.mem_map.1 ht
    exact hid ▸ h.ids_given u hu
  · intro t ht c hc
    rcases mem_replaceFirst_of_nodup hnodup ht with rfl | ⟨ht, hne⟩
    · exact linked_settle hself (fun u hu hne => mem_replaceFirst_of_ne hu hne) c hc
    · obtain ⟨v, hv, hcs⟩ := eq_of_mem_demoteReferences ht hne
      rw [hcs] at hc
      obtain ⟨e, he, rfl⟩ := List.mem_map.1 hc
      refine linked_demoteColumn (h.linked v hv e he) fun hhit hf ⟨u, hu, huid, hcol⟩ => ?_
      by_cases ho : u.id = old.id
      · obtain rfl := Table.eq_of_id_eq h.ids_nodup hu hold ho
        exact ⟨_, hself, huid, mem_columnNames_settle hcol (isHit_eq_false hhit hf huid.symm).2⟩
      · obtain ⟨v, hv, hvid, hvc⟩ := mem_demoteReferences old.id (removedColumns old d) false hu
        exact ⟨v, mem_replaceFirst_of_ne hv (hvid ▸ ho), hvid.trans huid, hvc ▸ hcol⟩

theorem Whole.deleted (h : s.Whole) (t : Table String) :
    Whole { s with
      tables := (demoteReferences t.id t.columns true s.tables).filter fun u => !(u.id == t.id) } := by
  have hsub := List.filter_sublist (p := fun u => !(u.id == t.id))
    (l := demoteReferences t.id t.columns true s.tables)
  constructor
  · refine List.Nodup.sublist (hsub.map (·.id)) ?_
    rw [map_id_demoteReferences]
    exact h.ids_nodup
  · intro u hu
    have hu : u.id ∈ s.tables.map (·.id) := by
      rw [← map_id_demoteReferences t.id t.columns true]
      exact List.mem_map_of_mem (hsub.subset hu)
    obtain ⟨v, hv, hid⟩ := List.mem_map.1 hu
    exact hid ▸ h.ids_given v hv
  · intro u hu c hc
    obtain ⟨hu, hne⟩ := List.mem_filter.1 hu
    obtain ⟨x, hx, hcs⟩ := eq_of_mem_demoteReferences hu (by simpa using hne)
    rw [hcs] at hc
    obtain ⟨e, he, rfl⟩ := List.mem_map.1 hc
    refine linked_demoteColumn (h.linked x hx e he) fun hhit hf ⟨v, hv, hvid, hcol⟩ => ?_
    have hvt : v.id ≠ t.id := fun he =>
      absurd (isHit_eq_false hhit hf (hvid.symm.trans he)).1 (by simp)
    obtain ⟨w, hw, hwid, hwc⟩ := mem_demoteReferences t.id t.columns true hv
    exact ⟨w, List.mem_filter.2 ⟨hw, by simpa [hwid] using hvt⟩, hwid.trans hvid, hwc ▸ hcol⟩

theorem Whole.imported (h : s.Whole) {text : String} {r : Ddl.Report}
    (found : Ddl.read s.ids text = .ok r) :
    Whole ⟨s.tables ++ r.tables, s.ids.drop r.tables.length⟩ where
  ids_nodup := by
    rw [List.map_append, List.nodup_append]
    refine ⟨h.ids_nodup, ?_, ?_⟩
    · exact Ddl.read_ids_nodup found
    · rintro a ha b hb rfl
      obtain ⟨t, ht, rfl⟩ := List.mem_map.1 ha
      rw [Ddl.read_ids found] at hb
      exact (h.ids_given t ht).not_mem_take hb
  ids_given := by
    intro t ht
    rcases List.mem_append.1 ht with ht | ht
    · exact (h.ids_given t ht).drop _
    · have ht : t.id ∈ r.tables.map (·.id) := List.mem_map_of_mem ht
      rw [Ddl.read_ids found] at ht
      exact TableId.Supply.given_of_mem_take ht
  linked := by
    intro t ht c hc
    rcases List.mem_append.1 ht with ht | ht
    · exact (h.linked t ht c hc).append
    · exact (Ddl.read_references found ht hc).imp_right fun ⟨hf, u, hu, hl⟩ =>
        ⟨hf, u, List.mem_append_right _ hu, hl⟩

theorem Whole.changes {s' : Store String} (h : s.Whole) (hc : Changes s s') : s'.Whole := by
  cases hc with
  | given count => exact ⟨h.ids_nodup, fun t ht => (h.ids_given t ht).drop count, h.linked⟩
  | created d _ => exact h.created d
  | updated old d found _ => exact h.updated (get?_eq_some found).1 d
  | deleted t _ => exact h.deleted t
  | imported text r found => exact h.imported found
  | cleared => exact ⟨List.nodup_nil, by simp, by simp⟩

theorem run_whole (ids : TableId.Supply) (actions : List Action) : (run ids actions).Whole :=
  run_keeps ⟨List.nodup_nil, by simp [empty], by simp [empty]⟩ (fun _ _ h hc => h.changes hc) actions

theorem Whole.get?_eq_some (h : s.Whole) {t : Table String} (ht : t ∈ s.tables) :
    s.get? t.id = some t :=
  (find?_key_eq_some h.ids_nodup).2 ⟨ht, rfl⟩

/-- A reference that leads to a column is set: no id and no column name is empty. -/
theorem Whole.isSet_of_leads (h : s.Whole) (hk : s.Keyed) {r : Reference String}
    (hl : Leads s.tables r) : r.isSet = true := by
  obtain ⟨u, hu, hid, hcol⟩ := hl
  obtain ⟨d, hd, hname⟩ := List.mem_map.1 hcol
  have hne := Validation.ne_empty_of_isValidName ((hk u hu).names_valid d hd)
  have hid : r.tableId ≠ "" := hid ▸ (h.ids_given u hu).ne_empty
  simp [Reference.isSet, hid, ← hname, hne]

/-- A column of a store resolves unless it is no foreign key or dangles. -/
theorem Whole.target?_eq_none (h : s.Whole) (hk : s.Keyed) {t : Table String} (ht : t ∈ s.tables)
    {c : Column String} (hc : c ∈ t.columns) :
    c.target? s.tables = none ↔ c.foreignKey = false ∨ c.references = Reference.unset := by
  constructor
  · intro hnone
    by_contra hcon
    obtain ⟨hf, hr⟩ := not_or.1 hcon
    have hf : c.foreignKey = true := by simpa using hf
    obtain ⟨-, hl⟩ := (h.linked t ht c hc).resolve_left hr
    have hset := h.isSet_of_leads hk hl
    obtain ⟨u, hu, hid, hcol⟩ := hl
    rw [Column.target?_of_reference h.ids_nodup hf hu hid hcol hset] at hnone
    cases hnone
  · rintro (hf | hr)
    · simp [Column.target?, hf]
    · exact Column.target?_of_unset hr

/-- References after any run: ids differ, a foreign key holds the empty reference or one that leads
to a column in the store, all other columns hold the empty one, and a column resolves exactly when
it is a foreign key that does not dangle. -/
theorem run_references (ids : TableId.Supply) (actions : List Action) :
    ((run ids actions).tables.map (·.id)).Nodup ∧
    ∀ t ∈ (run ids actions).tables, ∀ c ∈ t.columns,
      (c.foreignKey = true → c.references = Reference.unset ∨
        ∃ u ∈ (run ids actions).tables,
          u.id = c.references.tableId ∧ c.references.columnName ∈ u.columnNames) ∧
      (c.foreignKey = false → c.references = Reference.unset) ∧
      (c.target? (run ids actions).tables = none ↔
        c.foreignKey = false ∨ c.references = Reference.unset) := by
  have h := run_whole ids actions
  refine ⟨h.ids_nodup, fun t ht c hc => ⟨fun _ => ?_, fun hf => ?_, ?_⟩⟩
  · exact (h.linked t ht c hc).imp_right And.right
  · exact (h.linked t ht c hc).resolve_right fun ⟨hf', _⟩ => by simp [hf] at hf'
  · exact h.target?_eq_none (run_keyed ids actions) ht hc

end SchemaDesign.Store
