import SchemaDesign.Proofs.Store.Calls
import SchemaDesign.Proofs.Store.References

/-! What an update or a deletion of one table does to the others: exactly the foreign keys that point
at columns that go away are demoted, and nothing else changes. -/
namespace SchemaDesign.Store

/-- A foreign key that points at a column of the table `target`. -/
def PointsAt (target : String) (c r : Column String) : Prop :=
  c.foreignKey = true ∧ c.references = ⟨target, r.name⟩

/-- What becomes of a column when the columns `gone` of the table `target` go away. -/
structure Demoted (target : String) (gone : List (Column String)) (c c' : Column String) : Prop where
  changed_iff : c' ≠ c ↔ ∃ r ∈ gone, PointsAt target c r
  becomes : ∀ r ∈ gone, PointsAt target c r →
    c' = { c with
      unique := true
      nullable := if c.primaryKey then false else r.nullable
      foreignKey := false
      references := Reference.unset }

/-- What becomes of a table whose id is not `target`. -/
structure OnlyDemoted (target : String) (gone : List (Column String)) (t t' : Table String) :
    Prop where
  other : t.id ≠ target
  id : t'.id = t.id
  name : t'.name = t.name
  notes : t'.notes = t.notes
  primaryKey : t'.primaryKey = t.primaryKey
  columns : List.Forall₂ (Demoted target gone) t.columns t'.columns

/-- The table `old` gives way to the tables `put` when its columns `gone` go away. All other tables
keep their places and lose only the foreign keys that point at one of these columns. -/
def Cascades (old : Table String) (gone : List (Column String)) (put ts ts' : List (Table String)) :
    Prop :=
  ∃ before after before' after', ts = before ++ old :: after ∧ ts' = before' ++ put ++ after' ∧
    List.Forall₂ (OnlyDemoted old.id gone) before before' ∧
    List.Forall₂ (OnlyDemoted old.id gone) after after'

/-! One column -/

section Column

variable {target : String} {removed : List (Column String)} {whole : Bool} {c : Column String}

theorem nullability?_eq_some (hn : (removed.map (·.name)).Nodup) {r : Column String}
    (hr : r ∈ removed) : nullability? removed r.name = some r.nullable := by
  have hsome : (removed.find? (·.name == r.name)).isSome = true :=
    List.find?_isSome.2 ⟨r, hr, by simp⟩
  obtain ⟨d, hd⟩ := Option.isSome_iff_exists.1 hsome
  have hname : d.name = r.name := by simpa using List.find?_some hd
  have hdr : d = r := List.inj_on_of_nodup_map hn (List.mem_of_find?_eq_some hd) hr hname
  simp [nullability?, hd, hdr]

/-- The columns to be demoted are those that point at a removed one, provided that a sweep of the
whole table meets no reference to a column that the table lacks. -/
theorem isHit_iff (hswept : whole = true → c.foreignKey = true → c.references.tableId = target →
      c.references.columnName ∈ removed.map (·.name)) :
    isHit target removed whole c = true ↔ ∃ r ∈ removed, PointsAt target c r := by
  constructor
  · intro h
    obtain ⟨⟨hf, ht⟩, hname⟩ : (c.foreignKey = true ∧ c.references.tableId = target) ∧
        ((nullability? removed c.references.columnName).isSome = true ∨ whole = true) := by
      simpa [isHit] using h
    have hmem : c.references.columnName ∈ removed.map (·.name) := by
      rcases hname with hname | hwhole
      · simpa [nullability?] using hname
      · exact hswept hwhole hf ht
    obtain ⟨r, hr, hrn⟩ := List.mem_map.1 hmem
    exact ⟨r, hr, hf, by rw [hrn, ← ht]⟩
  · rintro ⟨r, hr, hf, href⟩
    have hsome : (nullability? removed r.name).isSome = true := by
      simpa [nullability?] using ⟨r, hr, rfl⟩
    simp [isHit, hf, href, hsome]

theorem demoted_demoteColumn (hn : (removed.map (·.name)).Nodup)
    (hswept : whole = true → c.foreignKey = true → c.references.tableId = target →
      c.references.columnName ∈ removed.map (·.name)) :
    Demoted target removed c (demoteColumn target removed whole c) := by
  by_cases h : ∃ r ∈ removed, PointsAt target c r
  · have hhit := (isHit_iff hswept).2 h
    have hbecomes : ∀ r ∈ removed, PointsAt target c r →
        demoteColumn target removed whole c = c.demote r.nullable := by
      intro r hr hp
      simp [demoteColumn, hhit, hp.2, nullability?_eq_some hn hr]
    obtain ⟨r, hr, hp⟩ := h
    refine ⟨⟨fun _ => ⟨r, hr, hp⟩, fun _ he => ?_⟩, hbecomes⟩
    have hf := hp.1
    rw [← he, hbecomes r hr hp] at hf
    exact absurd hf (by simp [Column.demote])
  · have hhit : isHit target removed whole c = false := by
      simpa using mt (isHit_iff hswept).1 h
    have hsame : demoteColumn target removed whole c = c := by simp [demoteColumn, hhit]
    exact ⟨⟨fun hne => absurd hsame hne, fun hp => absurd hp h⟩,
      fun r hr hp => absurd ⟨r, hr, hp⟩ h⟩

theorem demoteColumn_primaryKey : (demoteColumn target removed whole c).primaryKey = c.primaryKey := by
  unfold demoteColumn
  split <;> rfl

end Column

/-! One table -/

/-- Another table when columns of `target` go away. -/
def demoteTable (target : String) (removed : List (Column String)) (whole : Bool) (t : Table String) :
    Table String :=
  { t with columns := t.columns.map (demoteColumn target removed whole) }

theorem primaryKey_demoteTable (target : String) (removed : List (Column String)) (whole : Bool)
    (t : Table String) : (demoteTable target removed whole t).primaryKey = t.primaryKey := by
  refine Table.primaryKey_congr (List.forall₂_map_right_iff.2 (List.forall₂_same.2 fun c _ => ?_))
  exact ⟨demoteColumn_name _ _ _ c, demoteColumn_primaryKey⟩

theorem onlyDemoted_demoteTable {target : String} {removed : List (Column String)} {whole : Bool}
    {t : Table String} (hne : t.id ≠ target) (hn : (removed.map (·.name)).Nodup)
    (hswept : ∀ c ∈ t.columns, whole = true → c.foreignKey = true → c.references.tableId = target →
      c.references.columnName ∈ removed.map (·.name)) :
    OnlyDemoted target removed t (demoteTable target removed whole t) where
  other := hne
  id := rfl
  name := rfl
  notes := rfl
  primaryKey := primaryKey_demoteTable target removed whole t
  columns := by
    refine List.forall₂_map_right_iff.2 (List.forall₂_same.2 fun c hc => ?_)
    exact demoted_demoteColumn hn (hswept c hc)

/-! All tables -/

variable {s : Store String}

theorem demoteReferences_append_cons {before after : List (Table String)} {old : Table String}
    (hne : ∀ u ∈ before ++ after, u.id ≠ old.id) (removed : List (Column String)) (whole : Bool) :
    demoteReferences old.id removed whole (before ++ old :: after) =
      before.map (demoteTable old.id removed whole) ++
        old :: after.map (demoteTable old.id removed whole) := by
  have hmap (us : List (Table String)) (hus : ∀ u ∈ us, u.id ≠ old.id) :
      demoteReferences old.id removed whole us = us.map (demoteTable old.id removed whole) := by
    refine List.map_congr_left fun u hu => ?_
    simp [hus u hu, demoteTable]
  have happend : demoteReferences old.id removed whole (before ++ old :: after) =
      demoteReferences old.id removed whole before ++
        old :: demoteReferences old.id removed whole after := by
    simp [demoteReferences]
  rw [happend, hmap before fun u hu => hne u (List.mem_append_left _ hu),
    hmap after fun u hu => hne u (List.mem_append_right _ hu)]

theorem replaceFirst_append_cons {before after : List (Table String)} {t u : Table String}
    (hne : ∀ v ∈ before, v.id ≠ t.id) (hid : u.id = t.id) :
    replaceFirst t (before ++ u :: after) = before ++ t :: after := by
  induction before with
  | nil => simp [replaceFirst, hid]
  | cons v before ih =>
    have hv : v.id ≠ t.id := hne v List.mem_cons_self
    simp [replaceFirst, hv, ih fun w hw => hne w (List.mem_cons_of_mem _ hw)]

/-- A table stands between tables of other ids. -/
theorem Whole.split (h : s.Whole) {old : Table String} (hold : old ∈ s.tables) :
    ∃ before after, s.tables = before ++ old :: after ∧ ∀ u ∈ before ++ after, u.id ≠ old.id := by
  obtain ⟨before, after, htables⟩ := List.append_of_mem hold
  have hids := h.ids_nodup
  rw [htables, List.map_append, List.map_cons, List.nodup_middle, List.nodup_cons,
    ← List.map_append] at hids
  exact ⟨before, after, htables, fun u hu he => hids.1 (he ▸ List.mem_map_of_mem hu)⟩

/-- A reference into a table names one of its columns. -/
theorem Whole.columnName_mem (h : s.Whole) {old t : Table String} (hold : old ∈ s.tables)
    (ht : t ∈ s.tables) {c : Column String} (hc : c ∈ t.columns)
    (hid : c.references.tableId = old.id) : c.references.columnName ∈ old.columnNames := by
  rcases h.linked t ht c hc with hunset | ⟨-, u, hu, hui, hcol⟩
  · rw [hunset] at hid
    exact absurd hid.symm (h.ids_given old hold).ne_empty
  · rwa [Table.eq_of_id_eq h.ids_nodup hu hold (hui.trans hid)] at hcol

theorem cascades_append_cons {before after : List (Table String)} {old : Table String}
    {removed : List (Column String)} {whole : Bool} (put : List (Table String))
    (hother : ∀ u ∈ before ++ after,
      OnlyDemoted old.id removed u (demoteTable old.id removed whole u)) :
    Cascades old removed put (before ++ old :: after)
      (before.map (demoteTable old.id removed whole) ++ put ++
        after.map (demoteTable old.id removed whole)) := by
  refine ⟨before, after, _, _, rfl, rfl, ?_, ?_⟩
  · rw [List.forall₂_map_right_iff, List.forall₂_same]
    exact fun u hu => hother u (List.mem_append_left _ hu)
  · rw [List.forall₂_map_right_iff, List.forall₂_same]
    exact fun u hu => hother u (List.mem_append_right _ hu)

theorem Whole.cascades_updated (h : s.Whole) (hk : s.Keyed) {old : Table String}
    (hold : old ∈ s.tables) (d : Draft String) :
    Cascades old (removedColumns old d) [(s.beforeUpdate old d).settle old.id d] s.tables
      (replaceFirst ((s.beforeUpdate old d).settle old.id d) (s.beforeUpdate old d).tables) := by
  obtain ⟨before, after, htables, hne⟩ := h.split hold
  have hn : ((removedColumns old d).map (·.name)).Nodup :=
    (hk old hold).names_nodup.sublist (List.filter_sublist.map _)
  have hdemoted : (s.beforeUpdate old d).tables =
      before.map (demoteTable old.id (removedColumns old d) false) ++
        old :: after.map (demoteTable old.id (removedColumns old d) false) := by
    unfold beforeUpdate
    rw [htables]
    exact demoteReferences_append_cons hne _ _
  have hfirst : ∀ v ∈ before.map (demoteTable old.id (removedColumns old d) false),
      v.id ≠ ((s.beforeUpdate old d).settle old.id d).id := by
    rw [List.forall_mem_map]
    exact fun u hu => hne u (List.mem_append_left _ hu)
  rw [hdemoted, replaceFirst_append_cons (u := old) hfirst rfl, htables,
    List.append_cons _ ((s.beforeUpdate old d).settle old.id d)]
  refine cascades_append_cons _ fun u hu => ?_
  exact onlyDemoted_demoteTable (hne u hu) hn fun _ _ hwhole => absurd hwhole (by simp)

theorem Whole.cascades_deleted (h : s.Whole) (hk : s.Keyed) {old : Table String}
    (hold : old ∈ s.tables) :
    Cascades old old.columns [] s.tables
      ((demoteReferences old.id old.columns true s.tables).filter fun u => !(u.id == old.id)) := by
  obtain ⟨before, after, htables, hne⟩ := h.split hold
  have hkept (us : List (Table String)) (hus : ∀ u ∈ us, u.id ≠ old.id) :
      (us.map (demoteTable old.id old.columns true)).filter (fun u => !(u.id == old.id)) =
        us.map (demoteTable old.id old.columns true) := by
    rw [List.filter_eq_self, List.forall_mem_map]
    intro u hu
    simpa [demoteTable] using hus u hu
  have hrest : (demoteReferences old.id old.columns true s.tables).filter
        (fun u => !(u.id == old.id)) =
      before.map (demoteTable old.id old.columns true) ++ [] ++
        after.map (demoteTable old.id old.columns true) := by
    rw [htables, demoteReferences_append_cons hne, List.filter_append,
      List.filter_cons_of_neg (by simp), hkept before fun u hu => hne u (List.mem_append_left _ hu),
      hkept after fun u hu => hne u (List.mem_append_right _ hu), List.append_nil]
  rw [hrest, htables]
  refine cascades_append_cons [] fun u hu => ?_
  have hmem : u ∈ s.tables := by
    rw [htables]
    exact (List.mem_append.1 hu).elim (List.mem_append_left _)
      fun hu => List.mem_append_right _ (List.mem_cons_of_mem _ hu)
  -- a sweep of the whole table finds no reference beyond its columns, since all of them lead somewhere
  exact onlyDemoted_demoteTable (hne u hu) (hk old hold).names_nodup
    fun c hc _ _ hid => h.columnName_mem hold hmem hc hid

/-- The columns of a table whose names a draft has no more. -/
theorem removedColumns_eq (t : Table String) (d : Draft String) :
    removedColumns t d = t.columns.filter fun r => r.name ∉ d.columns.map (·.name) := by
  unfold removedColumns
  refine List.filter_congr fun c _ => ?_
  rw [Bool.eq_iff_iff]
  simp

/-- Demotion is exact after any run. An update that is committed demotes the foreign keys into the
columns that the draft has no more, and a deletion those into any column of the table; nothing else
changes in any other table. -/
theorem run_cascades (ids : TableId.Supply) (actions : List Action) :
    (∀ id d t, ((run ids actions).update id d).result = some t →
      ∃ old, (run ids actions).get? id = some old ∧ t.id = id ∧
        Cascades old (old.columns.filter fun r => r.name ∉ d.columns.map (·.name)) [t]
          (run ids actions).tables ((run ids actions).update id d).store.tables) ∧
    (∀ id old, (run ids actions).get? id = some old →
      ((run ids actions).delete id).result = true ∧
        Cascades old old.columns [] (run ids actions).tables ((run ids actions).delete id).store.tables) := by
  have hw := run_whole ids actions
  have hk := run_keyed ids actions
  constructor
  · intro id d t h
    obtain ⟨old, hget, rfl, htables⟩ := update_result_eq_some h
    obtain ⟨hold, rfl⟩ := get?_eq_some hget
    refine ⟨old, hget, rfl, ?_⟩
    rw [htables, ← removedColumns_eq]
    exact hw.cascades_updated hk hold d
  · intro id old h
    obtain ⟨hresult, htables⟩ := delete_of_get? h
    rw [htables]
    exact ⟨hresult, hw.cascades_deleted hk (get?_eq_some h).1⟩

/-- One table points at two columns of another, by a primary key and by a plain column. -/
def linkedRun : List Action :=
  [.create ⟨"users", "",
      [⟨"id", "int", none, false, true, true, false, Reference.unset⟩,
       ⟨"mail", "varchar", some 40, false, true, false, false, Reference.unset⟩,
       ⟨"nick", "int", none, true, true, false, false, Reference.unset⟩], none⟩,
   .create ⟨"posts", "",
      [⟨"mail", "varchar", some 40, true, false, false, true, ⟨TableId.ofNumber 1, "mail"⟩⟩,
       ⟨"nick", "int", none, false, true, true, true, ⟨TableId.ofNumber 1, "nick"⟩⟩], none⟩]

/-- The draft that takes both columns away. -/
def narrowedUsers : Draft String :=
  ⟨"users", "", [⟨"id", "int", none, false, true, true, false, Reference.unset⟩], none⟩

/-- What becomes of the table that points at them. -/
def demotedPosts : Table String :=
  ⟨TableId.ofNumber 2, "posts", "",
    [⟨"mail", "varchar", some 40, false, true, false, false, Reference.unset⟩,
     ⟨"nick", "int", none, false, true, true, false, Reference.unset⟩]⟩

theorem cascades_linkedRun :
    (∃ old t, ((run .counter linkedRun).update (TableId.ofNumber 1) narrowedUsers).result = some t ∧
      Cascades old (old.columns.filter fun r => r.name ∉ narrowedUsers.columns.map (·.name)) [t]
        (run .counter linkedRun).tables
        ((run .counter linkedRun).update (TableId.ofNumber 1) narrowedUsers).store.tables) ∧
    demotedPosts ∈ ((run .counter linkedRun).update (TableId.ofNumber 1) narrowedUsers).store.tables ∧
    (∃ old, (run .counter linkedRun).get? (TableId.ofNumber 1) = some old ∧
      Cascades old old.columns [] (run .counter linkedRun).tables
        ((run .counter linkedRun).delete (TableId.ofNumber 1)).store.tables) := by
  obtain ⟨hupdate, hdelete⟩ := run_cascades .counter linkedRun
  have hsome : ((run .counter linkedRun).update (TableId.ofNumber 1) narrowedUsers).result.isSome = true := by
    decide +kernel
  obtain ⟨t, ht⟩ := Option.isSome_iff_exists.1 hsome
  obtain ⟨old, hold, -, hcascade⟩ := hupdate _ _ t ht
  exact ⟨⟨old, t, ht, hcascade⟩, by decide +kernel, old, hold, (hdelete _ old hold).2⟩

end SchemaDesign.Store
