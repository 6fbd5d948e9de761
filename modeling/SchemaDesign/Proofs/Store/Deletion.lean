import SchemaDesign.Proofs.Store.Removal

/-! Deleting one table after another. Each deletion demotes foreign keys in all other tables, by what the
columns of the deleted table are at that moment. Between tables without a foreign key from one into the
other, neither deletion changes what the other one goes by, so their order makes no difference. -/
namespace SchemaDesign.Store

variable {s : Store String} {a b : Table String}

/-! One column under two demotions -/

section Column

variable {target target' : String} {removed removed' : List (Column String)} {whole whole' : Bool}
  {c : Column String}

theorem demoteColumn_of_not_isHit (h : isHit target removed whole c = false) :
    demoteColumn target removed whole c = c := if_neg (by simp [h])

theorem isHit_of_not_foreignKey (h : c.foreignKey = false) : isHit target removed whole c = false := by
  simp [isHit, h]

/-- A foreign key leads into one table at most. -/
theorem isHit_other (hne : target ≠ target') (h : isHit target removed whole c = true) :
    isHit target' removed' whole' c = false := by
  have hid : c.references.tableId = target := by
    simp only [isHit, Bool.and_eq_true, beq_iff_eq] at h
    exact h.1.2
  simp [isHit, hid, hne]

/-- What one demotion has changed, another one leaves as it is. -/
theorem isHit_demoted (h : isHit target removed whole c = true) :
    isHit target' removed' whole' (demoteColumn target removed whole c) = false := by
  apply isHit_of_not_foreignKey
  rw [demoteColumn, if_pos h]
  rfl

theorem demoteColumn_comm (hne : target ≠ target') (c : Column String) :
    demoteColumn target' removed' whole' (demoteColumn target removed whole c) =
      demoteColumn target removed whole (demoteColumn target' removed' whole' c) := by
  by_cases h : isHit target removed whole c = true
  · rw [demoteColumn_of_not_isHit (isHit_demoted h), demoteColumn_of_not_isHit (isHit_other hne h)]
  · have hkept : demoteColumn target removed whole c = c := demoteColumn_of_not_isHit (by simpa using h)
    by_cases h' : isHit target' removed' whole' c = true
    · rw [hkept, demoteColumn_of_not_isHit (isHit_demoted h')]
    · rw [hkept, demoteColumn_of_not_isHit (by simpa using h'), hkept]

end Column

/-! All tables -/

/-- Demotions on behalf of different tables commute. -/
theorem demoteReferences_comm {target target' : String} (hne : target ≠ target')
    (removed removed' : List (Column String)) (whole whole' : Bool) (ts : List (Table String)) :
    demoteReferences target' removed' whole' (demoteReferences target removed whole ts) =
      demoteReferences target removed whole (demoteReferences target' removed' whole' ts) := by
  unfold demoteReferences
  rw [List.map_map, List.map_map]
  refine List.map_congr_left fun t _ => ?_
  by_cases h : t.id = target
  · simp [h, hne]
  · by_cases h' : t.id = target'
    · simp [h', hne.symm]
    · simp [h, h', demoteColumn_comm hne]

theorem others_comm (id id' : String) (ts : List (Table String)) :
    others id (others id' ts) = others id' (others id ts) := by
  unfold others
  rw [List.filter_filter, List.filter_filter]
  exact List.filter_congr fun t _ => Bool.and_comm _ _

/-- No foreign key of a table references another one. -/
def Unlinked (a b : Table String) : Prop :=
  ∀ c ∈ a.columns, c.foreignKey = true → c.references.tableId ≠ b.id

instance (a b : Table String) : Decidable (Unlinked a b) :=
  inferInstanceAs (Decidable (∀ c ∈ a.columns, c.foreignKey = true → c.references.tableId ≠ b.id))

theorem Unlinked.columns_demoted (h : Unlinked b a) (removed : List (Column String)) (whole : Bool) :
    b.columns.map (demoteColumn a.id removed whole) = b.columns := by
  have hkept : ∀ c ∈ b.columns, demoteColumn a.id removed whole c = c := by
    intro c hc
    apply demoteColumn_of_not_isHit
    cases hf : c.foreignKey with
    | false => exact isHit_of_not_foreignKey hf
    | true => simp [isHit, h c hc hf]
  rw [List.map_congr_left hkept, List.map_id']

/-- A table without a foreign key into another one outlives the deletion of that one as it is. -/
theorem Unlinked.mem_delete (h : Unlinked b a) (ha : s.get? a.id = some a) (hb : b ∈ s.tables)
    (hne : b.id ≠ a.id) : b ∈ (s.delete a.id).store.tables := by
  have hdemoted : b ∈ demoteReferences a.id a.columns true s.tables := by
    refine List.mem_map.2 ⟨b, hb, ?_⟩
    rw [if_neg (by simpa using hne), h.columns_demoted]
  rw [delete_tables ha]
  exact List.mem_filter.2 ⟨hdemoted, by simpa using hne⟩

theorem Whole.delete (h : s.Whole) (id : String) : (s.delete id).store.Whole :=
  h.changes (step_changes s (.delete id))

/-- The tables that two deletions leave: each goes by the columns that its table had at first. -/
theorem Whole.delete_delete (h : s.Whole) (ha : a ∈ s.tables) (hb : b ∈ s.tables) (hne : b.id ≠ a.id)
    (hba : Unlinked b a) :
    ((s.delete a.id).store.delete b.id).result = true ∧
    ((s.delete a.id).store.delete b.id).store.tables =
      others b.id (others a.id
        (demoteReferences b.id b.columns true (demoteReferences a.id a.columns true s.tables))) := by
  have hget := h.get?_eq_some ha
  have hget' := (h.delete a.id).get?_eq_some (hba.mem_delete hget hb hne)
  refine ⟨(delete_of_get? hget').1, ?_⟩
  rw [delete_tables hget', delete_tables hget, others_demoteReferences a.id b.id]

/-- Two tables that do not reference each other can be deleted in either order: both deletions are carried
out, and the same store is left, whatever other tables reference one of them or both. -/
theorem run_delete_comm (ids : TableId.Supply) (actions : List Action) (ha : a ∈ (run ids actions).tables)
    (hb : b ∈ (run ids actions).tables) (hne : a ≠ b) (hab : Unlinked a b) (hba : Unlinked b a) :
    ((run ids actions).delete a.id).result = true ∧
    ((run ids actions).delete b.id).result = true ∧
    (((run ids actions).delete a.id).store.delete b.id).result = true ∧
    (((run ids actions).delete b.id).store.delete a.id).result = true ∧
    (((run ids actions).delete a.id).store.delete b.id).store =
      (((run ids actions).delete b.id).store.delete a.id).store := by
  have hw := run_whole ids actions
  have hid : a.id ≠ b.id := mt (Table.eq_of_id_eq hw.ids_nodup ha hb) hne
  obtain ⟨hresult, htables⟩ := hw.delete_delete ha hb hid.symm hba
  obtain ⟨hresult', htables'⟩ := hw.delete_delete hb ha hid hab
  refine ⟨(delete_of_get? (hw.get?_eq_some ha)).1, (delete_of_get? (hw.get?_eq_some hb)).1, hresult,
    hresult', eq_of_tables ?_ ?_⟩
  · rw [htables, htables', demoteReferences_comm hid, others_comm]
  · rw [delete_ids, delete_ids, delete_ids, delete_ids]

/-- The first table references itself and the second one nothing. The third one references both of them,
the second by its key, and the fourth one references the second and the third. -/
def marketRun : List Action :=
  [.create ⟨"users", "",
      [⟨"id", "int", none, false, true, false, false, Reference.unset⟩,
       ⟨"chief", "int", none, true, false, false, true, ⟨TableId.ofNumber 1, "id"⟩⟩], none⟩,
   .create ⟨"shops", "",
      [⟨"code", "int", none, true, false, false, false, Reference.unset⟩,
       ⟨"town", "text", none, true, false, false, false, Reference.unset⟩], none⟩,
   .create ⟨"bills", "",
      [⟨"buyer", "int", none, true, false, false, true, ⟨TableId.ofNumber 1, "id"⟩⟩,
       ⟨"shop", "int", none, false, true, true, true, ⟨TableId.ofNumber 2, "code"⟩⟩], none⟩,
   .create ⟨"pleas", "",
      [⟨"bill", "int", none, true, false, false, true, ⟨TableId.ofNumber 3, "buyer"⟩⟩,
       ⟨"town", "text", none, false, false, false, true, ⟨TableId.ofNumber 2, "town"⟩⟩], none⟩]

def marketUsers : Table String :=
  ⟨TableId.ofNumber 1, "users", "",
    [⟨"id", "int", none, false, true, false, false, Reference.unset⟩,
     ⟨"chief", "int", none, true, false, false, true, ⟨TableId.ofNumber 1, "id"⟩⟩]⟩

def marketShops : Table String :=
  ⟨TableId.ofNumber 2, "shops", "",
    [⟨"code", "int", none, true, false, false, false, Reference.unset⟩,
     ⟨"town", "text", none, true, false, false, false, Reference.unset⟩]⟩

/-- What is left of the other two. -/
def marketRest : List (Table String) :=
  [⟨TableId.ofNumber 3, "bills", "",
      [⟨"buyer", "int", none, false, true, false, false, Reference.unset⟩,
       ⟨"shop", "int", none, false, true, true, false, Reference.unset⟩]⟩,
   ⟨TableId.ofNumber 4, "pleas", "",
      [⟨"bill", "int", none, true, false, false, true, ⟨TableId.ofNumber 3, "buyer"⟩⟩,
       ⟨"town", "text", none, true, true, false, false, Reference.unset⟩]⟩]

theorem delete_comm_marketRun :
    marketUsers ∈ (run .counter marketRun).tables ∧ marketShops ∈ (run .counter marketRun).tables ∧
    Unlinked marketUsers marketShops ∧ Unlinked marketShops marketUsers ∧
    (((run .counter marketRun).delete marketUsers.id).store.delete marketShops.id).store.tables =
      marketRest ∧
    (((run .counter marketRun).delete marketShops.id).store.delete marketUsers.id).store.tables =
      marketRest := by
  have husers : marketUsers ∈ (run .counter marketRun).tables := by decide +kernel
  have hshops : marketShops ∈ (run .counter marketRun).tables := by decide +kernel
  have hab : Unlinked marketUsers marketShops := by decide +kernel
  have hba : Unlinked marketShops marketUsers := by decide +kernel
  have hrest : (((run .counter marketRun).delete marketUsers.id).store.delete marketShops.id).store.tables =
      marketRest := by decide +kernel
  obtain ⟨-, -, -, -, hcomm⟩ := run_delete_comm .counter marketRun husers hshops (by decide +kernel) hab hba
  exact ⟨husers, hshops, hab, hba, hrest, hcomm ▸ hrest⟩

/-- A column of `bills` leads into `users`, so these two are not unlinked: if `users` goes first, the column
takes the nullability of its target, and passes it on to the column of `pleas` that leads to it. -/
example :
    (((run .counter marketRun).delete marketUsers.id).store.delete (TableId.ofNumber 3)).store.tables ≠
      (((run .counter marketRun).delete (TableId.ofNumber 3)).store.delete marketUsers.id).store.tables := by
  decide +kernel

end SchemaDesign.Store
