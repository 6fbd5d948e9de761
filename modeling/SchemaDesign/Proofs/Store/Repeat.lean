import SchemaDesign.Proofs.Store.Cascade
import SchemaDesign.Proofs.Store.Gate

/-! Updates that change nothing: one that asks a table to be what it is, and one that is made a second
time. What a draft becomes depends on the other tables through their ids and column names alone, and these
are what an update leaves to every other table. -/
namespace SchemaDesign

/-- The draft of a table as it stands, its key included. -/
def Table.draft (t : Table String) : Draft String := ⟨t.name, t.notes, t.columns, t.primaryKey⟩

namespace Store

variable {s u : Store String} {id : String} {d : Draft String} {t old : Table String}
  {ts : List (Table String)}

/-! The table that is put -/

/-- What a look-up finds once a table has taken the place of another one of its id. -/
theorem find?_replaceFirst (hold : old ∈ ts) (hid : old.id = t.id) (i : String) :
    (replaceFirst t ts).find? (·.id == i) = if t.id = i then some t else ts.find? (·.id == i) := by
  induction ts with
  | nil => cases hold
  | cons v ts ih =>
    by_cases hv : v.id = t.id
    · by_cases hi : t.id = i <;> simp [replaceFirst, hv, hi]
    · have hold : old ∈ ts := (List.mem_cons.1 hold).resolve_left fun he => hv (he ▸ hid)
      rw [replaceFirst, if_neg (by simpa using hv)]
      by_cases hi : v.id = i
      · have hti : t.id ≠ i := fun h => hv (hi.trans h.symm)
        simp [hi, hti]
      · simp [hi, ih hold]

/-- A table that is found already stays where it is. -/
theorem replaceFirst_of_find? (h : ts.find? (·.id == t.id) = some t) : replaceFirst t ts = ts := by
  induction ts with
  | nil => cases h
  | cons v ts ih =>
    by_cases hv : v.id = t.id
    · obtain rfl : v = t := by simpa [hv] using h
      simp [replaceFirst]
    · rw [replaceFirst, if_neg (by simpa using hv), ih (by simpa [hv] using h)]

/-! Nothing to remove -/

theorem removedColumns_eq_nil (h : t.columnNames ⊆ d.columns.map (·.name)) : removedColumns t d = [] := by
  rw [removedColumns_eq, List.filter_eq_nil_iff]
  intro c hc
  simpa using h (List.mem_map_of_mem hc)

/-- Where no column goes away no foreign key is demoted. -/
theorem beforeUpdate_of_removed_nil (h : removedColumns t d = []) : s.beforeUpdate t d = s := by
  have hcolumn : ∀ c, demoteColumn t.id [] false c = c := by
    intro c
    simp [demoteColumn, isHit, nullability?]
  simp [beforeUpdate, h, demoteReferences, funext hcolumn]

/-- An update that removes no column and settles to the table that is there changes nothing. -/
theorem update_of_settled (hget : s.get? t.id = some t)
    (gate : Validation.problems d.name d.columns = []) (hremoved : removedColumns t d = [])
    (hsettle : s.settle t.id d = t) :
    (s.update t.id d).result = some t ∧ (s.update t.id d).store = s := by
  obtain ⟨hresult, htables⟩ := update_of_gate hget gate
  rw [beforeUpdate_of_removed_nil hremoved, hsettle] at hresult htables
  rw [replaceFirst_of_find? hget] at htables
  exact ⟨hresult, eq_of_tables htables (update_ids s t.id d)⟩

/-! A table as it stands -/

/-- Whatever leads to a column is kept in the draft of a table of the store. -/
theorem Whole.leadsTo_of_leads (h : s.Whole) (hk : s.Keyed) (ht : t ∈ s.tables) {r : Reference String}
    (hl : Leads s.tables r) : s.leadsTo t.id t.columns r = true := by
  have hset := h.isSet_of_leads hk hl
  obtain ⟨u, hu, hid, hcol⟩ := hl
  unfold leadsTo
  rw [hset, Bool.true_and, ← hid]
  split
  · next hown =>
    obtain rfl := Table.eq_of_id_eq h.ids_nodup hu ht (by simpa using hown)
    simpa [Table.columnNames] using hcol
  · rw [h.get?_eq_some hu]
    exact Table.column?_isSome.2 hcol

/-- The references of a table of the store are all sound, so none is emptied. -/
theorem Whole.sanitise_columns (h : s.Whole) (hk : s.Keyed) (ht : t ∈ s.tables) :
    s.sanitise t.id t.columns = t.columns := by
  rw [sanitise_eq_map]
  refine (List.map_congr_left fun c hc => ?_).trans (List.map_id _)
  rcases h.linked t ht c hc with hunset | ⟨hf, hl⟩
  · rw [hunset, ite_self, ← hunset]
    rfl
  · have hkept : (!c.foreignKey || s.dangles t.id t.columns c) = false := by
      simp [hf, dangles, h.leadsTo_of_leads hk ht hl]
    rw [hkept]
    rfl

theorem Whole.settle_draft (h : s.Whole) (hk : s.Keyed) (ht : t ∈ s.tables) :
    s.settle t.id t.draft = t := by
  have hnotes : notesOf t.notes = t.notes := by
    by_cases hempty : t.notes = "" <;> simp [notesOf, hempty]
  simp only [settle, Table.draft, (hk t ht).normalise_primaryKey, h.sanitise_columns hk ht, hnotes]

/-! An update that is made again -/

theorem leadsTo_congr (h : ∀ i, i ≠ id → u.get? i = s.get? i) (cs : List (Column String))
    (r : Reference String) : u.leadsTo id cs r = s.leadsTo id cs r := by
  unfold leadsTo
  split
  · rfl
  · next hne => rw [h r.tableId (by simpa using hne)]

/-- What a draft becomes in two stores that find the same tables under all other ids. -/
theorem settle_congr (h : ∀ i, i ≠ id → u.get? i = s.get? i) (d : Draft String) :
    u.settle id d = s.settle id d := by
  have hdangles : u.dangles id = s.dangles id := by
    funext cs c
    simp only [dangles, leadsTo_congr h]
  simp only [settle, sanitise, hdangles]

/-- What is found after an update: the new table under its id, and what a demotion has left elsewhere. -/
theorem get?_update (hget : s.get? id = some old) (h : (s.update id d).result = some t) (i : String) :
    (s.update id d).store.get? i = if id = i then some t else (s.beforeUpdate old d).get? i := by
  obtain ⟨old', hget', hsettle, htables⟩ := update_result_eq_some h
  obtain rfl : old = old' := Option.some.inj (hget.symm.trans hget')
  obtain ⟨hold, rfl⟩ := get?_eq_some hget
  have hid : t.id = old.id := by rw [hsettle]; rfl
  obtain ⟨old', hold', hid', -⟩ := mem_demoteReferences old.id (removedColumns old d) false hold
  unfold get?
  rw [htables, ← hid]
  exact find?_replaceFirst hold' (hid'.trans hid.symm) i

/-- The same update a second time answers the same and changes nothing, in any store. -/
theorem update_update (h : (s.update id d).result = some t) :
    ((s.update id d).store.update id d).result = some t ∧
      ((s.update id d).store.update id d).store = (s.update id d).store := by
  obtain ⟨old, hget, hsettle, -⟩ := update_result_eq_some h
  obtain ⟨-, rfl⟩ := get?_eq_some hget
  have hid : t.id = old.id := by rw [hsettle]; rfl
  have hnames : t.columnNames = d.columns.map (·.name) := by
    rw [hsettle]
    exact settle_columnNames ..
  have hfound : (s.update old.id d).store.get? old.id = some t := by
    rw [get?_update hget h, if_pos rfl]
  have hagain : (s.update old.id d).store.settle old.id d = t := by
    rw [settle_congr (s := s.beforeUpdate old d), ← hsettle]
    intro i hi
    rw [get?_update hget h, if_neg hi.symm]
  rw [← hid] at hfound hagain ⊢
  exact update_of_settled hfound (update_gate h)
    (removedColumns_eq_nil (hnames ▸ List.Subset.refl _)) hagain

/-- Updates settle on every reachable store. A table that has columns can be asked to be what it is, which
is not refused and leaves the store as it was; and an update that is committed can be made again, which
answers with the same table and leaves the store as the first one did. -/
theorem run_updates_settle (ids : TableId.Supply) (actions : List Action) :
    (∀ t ∈ (run ids actions).tables, t.columns ≠ [] →
      ((run ids actions).update t.id t.draft).result = some t ∧
        ((run ids actions).update t.id t.draft).store = run ids actions) ∧
    (∀ id d t, ((run ids actions).update id d).result = some t →
      (((run ids actions).update id d).store.update id d).result = some t ∧
        (((run ids actions).update id d).store.update id d).store =
          ((run ids actions).update id d).store) := by
  refine ⟨fun t ht hne => ?_, fun id d t h => update_update h⟩
  have hw := run_whole ids actions
  have gate : Validation.problems t.name t.columns = [] := by
    rw [problems_of_mem_run ht, if_neg (by simpa using hne)]
  exact update_of_settled (hw.get?_eq_some ht) gate (removedColumns_eq_nil (List.Subset.refl _))
    (hw.settle_draft (run_keyed ids actions) ht)

/-- The table of `linkedRun` whose columns point at the other one. -/
def linkedPosts : Table String :=
  ⟨TableId.ofNumber 2, "posts", "",
    [⟨"mail", "varchar", some 40, true, false, false, true, ⟨TableId.ofNumber 1, "mail"⟩⟩,
     ⟨"nick", "int", none, false, true, true, true, ⟨TableId.ofNumber 1, "nick"⟩⟩]⟩

theorem updates_settle_linkedRun :
    (linkedPosts ∈ (run .counter linkedRun).tables ∧
      ((run .counter linkedRun).update linkedPosts.id linkedPosts.draft).store = run .counter linkedRun) ∧
    ∃ t, ((run .counter linkedRun).update (TableId.ofNumber 1) narrowedUsers).result = some t ∧
      (((run .counter linkedRun).update (TableId.ofNumber 1) narrowedUsers).store.update
        (TableId.ofNumber 1) narrowedUsers).store =
        ((run .counter linkedRun).update (TableId.ofNumber 1) narrowedUsers).store := by
  obtain ⟨hdraft, hagain⟩ := run_updates_settle .counter linkedRun
  have hmem : linkedPosts ∈ (run .counter linkedRun).tables := by decide +kernel
  have hsome : ((run .counter linkedRun).update (TableId.ofNumber 1) narrowedUsers).result.isSome = true := by
    decide +kernel
  obtain ⟨t, ht⟩ := Option.isSome_iff_exists.1 hsome
  exact ⟨⟨hmem, (hdraft _ hmem (by decide)).2⟩, t, ht, (hagain _ _ t ht).2⟩

end Store

end SchemaDesign
