import SchemaDesign.Proofs.Store.Removal
import SchemaDesign.Proofs.Store.Written

/-! What a call tells of tables that are called alike. A creation and an update warn exactly where the
table that they write has the name of another one, case apart. An import, which writes tables as well,
never does. -/
namespace SchemaDesign.Store

variable {s : Store String} {a : Action} {d : Draft String} {t u : Table String} {ts : List (Table String)}

/-- What a call logs. -/
def records (s : Store String) : Action → List Log.Record
  | .create d => (s.create d).records
  | .update id d => (s.update id d).records
  | .delete id => (s.delete id).records
  | .importDdl text => (s.importDdl text).records
  | .clear => []

/-- The warning that the names of two tables clash. -/
def collision (name other : String) : Log.Record :=
  record Log.warning ("Table name " ++ named name ++ " collides with " ++ named other
    ++ "; generated identifiers may clash.")

/-- Whether a record is a warning of names that clash. -/
def isCollision (r : Log.Record) : Bool :=
  decide (r.level = Log.warning) && "Table name ".toList.isPrefixOf r.message.toList

/-- The other tables that are called like a table, case apart. -/
def namesakes (ts : List (Table String)) (t : Table String) : List (Table String) :=
  (others t.id ts).filter fun u => Text.caseFold u.name.toList == Text.caseFold t.name.toList

/-- The one warning for the first table that is called alike, if there is any. -/
def warnings (ts : List (Table String)) (t : Table String) : List Log.Record :=
  ((namesakes ts t).head?.map fun u => collision t.name u.name).toList

/-- Another table is called alike, case apart. -/
def Clashes (ts : List (Table String)) (t : Table String) : Prop :=
  ∃ u ∈ ts, u ≠ t ∧ Text.caseFold u.name.toList = Text.caseFold t.name.toList

/-- Where a call writes a table that clashes it warns, and where it writes none it does not. -/
structure Announces (s : Store String) (a : Action) : Prop where
  told : ∀ t, Writes s a t → Clashes (step s a).tables t → ∃ r ∈ records s a, isCollision r = true
  silent : (∀ t, Writes s a t → ¬ Clashes (step s a).tables t) →
    ∀ r ∈ records s a, isCollision r = false

/-! The tables that are called alike -/

theorem mem_namesakes : u ∈ namesakes ts t ↔
    u ∈ ts ∧ u.id ≠ t.id ∧ Text.caseFold u.name.toList = Text.caseFold t.name.toList := by
  simp [namesakes, others, and_comm]

theorem clashes_iff (hn : (ts.map (·.id)).Nodup) (ht : t ∈ ts) :
    Clashes ts t ↔ namesakes ts t ≠ [] := by
  constructor
  · rintro ⟨u, hu, hne, hname⟩
    apply List.ne_nil_of_mem
    exact mem_namesakes.2 ⟨hu, fun hid => hne (Table.eq_of_id_eq hn hu ht hid), hname⟩
  · intro h
    obtain ⟨u, hu⟩ := List.exists_mem_of_ne_nil _ h
    obtain ⟨hu, hid, hname⟩ := mem_namesakes.1 hu
    exact ⟨u, hu, fun heq => hid (congrArg Table.id heq), hname⟩

theorem namesakes_append_self (ts : List (Table String)) (t : Table String) :
    namesakes (ts ++ [t]) t = namesakes ts t := by
  simp [namesakes, others]

theorem namesakes_replaceFirst (t : Table String) (ts : List (Table String)) :
    namesakes (replaceFirst t ts) t = namesakes ts t := by
  rw [namesakes, others_replaceFirst, namesakes]

theorem warnings_eq_nil : warnings ts t = [] ↔ namesakes ts t = [] := by
  simp [warnings]

theorem collisionRecords_eq (s : Store String) (t : Table String) :
    s.collisionRecords t.id t.name = warnings s.tables t := by
  have hfirst : (namesakes s.tables t).head? = s.tables.find? fun u =>
      !(u.id == t.id) && Text.caseFold u.name.toList == Text.caseFold t.name.toList := by
    rw [namesakes, others, List.filter_filter, List.head?_filter]
    simp only [Bool.and_comm]
  rw [warnings, hfirst]
  unfold collisionRecords
  simp only [Label.shown_string]
  cases s.tables.find? _ <;> rfl

/-! Which records are warnings of a clash -/

theorem isCollision_of_level {r : Log.Record} (h : r.level ≠ Log.warning) : isCollision r = false := by
  simp [isCollision, h]

theorem isCollision_collision (name other : String) : isCollision (collision name other) = true := by
  simp [isCollision, collision, record]

/-- A draft that is refused is told of in other words. -/
theorem filter_refused (name verb rest : String) :
    [record Log.warning ("Table " ++ named name ++ verb ++ rest)].filter isCollision = [] := by
  simp [isCollision, record, named, List.isPrefixOf]

theorem filter_unknown (id : String) :
    [record Log.warning ("Cannot update unknown table id " ++ named id ++ ".")].filter isCollision =
      [] := by
  simp [isCollision, record, List.isPrefixOf]

theorem filter_warnings : (warnings ts t).filter isCollision = warnings ts t := by
  rw [List.filter_eq_self]
  intro r hr
  obtain ⟨u, -, rfl⟩ := Option.map_eq_some_iff.1 (Option.mem_toList.1 hr)
  exact isCollision_collision t.name u.name

theorem filter_of_level {rs : List Log.Record} (h : ∀ r ∈ rs, r.level ≠ Log.warning) :
    rs.filter isCollision = [] := by
  rw [List.filter_eq_nil_iff]
  intro r hr
  rw [isCollision_of_level (h r hr)]
  exact Bool.false_ne_true

theorem filter_settleRecords (s : Store String) (id : String) (d : Draft String) :
    (s.settleRecords id d).filter isCollision = [] := by
  apply filter_of_level
  unfold settleRecords danglingRecords
  rw [List.forall_mem_map]
  intro c _
  show Log.debug ≠ Log.warning
  decide

theorem filter_demotionRecords (s : Store String) (t : Table String) (removed : List (Column String)) :
    (s.demotionRecords t removed).filter isCollision = [] := by
  apply filter_of_level
  intro r hr
  dsimp only [demotionRecords] at hr
  split at hr
  · cases hr
  · rw [List.mem_singleton.1 hr]
    show Log.info ≠ Log.warning
    decide

/-- What reading a text tells is no warning. -/
theorem filter_importRecords (text : String) (r : Ddl.Report) :
    (importRecords text r).filter isCollision = [] := by
  have hread : ∀ q ∈ r.records text, q.level = Log.debug := by
    unfold Ddl.Report.records
    split
    · simp
    · simp only [List.forall_mem_append, List.forall_mem_map, List.forall_mem_singleton]
      exact ⟨⟨fun _ _ => rfl, fun _ _ => rfl⟩, trivial⟩
  have hcounts : ∀ (b : Bool) (message : String),
      ∀ q ∈ (if b then [] else [record Log.info message]), q.level = Log.info := by
    intro b message
    cases b with
    | true => exact fun q hq => absurd hq List.not_mem_nil
    | false => exact List.forall_mem_singleton.2 rfl
  apply filter_of_level
  intro q hq
  have hlevel : q.level = Log.debug ∨ q.level = Log.info := by
    unfold importRecords at hq
    rcases List.mem_append.1 hq with hq | hq
    · exact (List.mem_append.1 hq).imp (hread q) (hcounts _ _ q)
    · exact .inr (hcounts _ _ q hq)
  rcases hlevel with h | h <;> rw [h] <;> decide

/-! Calls -/

theorem create_records (h : Validation.problems d.name d.columns = []) :
    ∃ message, (s.create d).records = s.settleRecords s.ids.first d
      ++ s.collisionRecords s.ids.first d.name ++ [record Log.debug message] := by
  simp only [create, h]
  exact ⟨_, rfl⟩

theorem update_records {old : Table String} {id : String} (hold : s.get? id = some old)
    (h : Validation.problems d.name d.columns = []) :
    ∃ message, (s.update id d).records = s.demotionRecords old (removedColumns old d)
      ++ (s.beforeUpdate old d).settleRecords old.id d
      ++ (s.beforeUpdate old d).collisionRecords old.id d.name ++ [record Log.debug message] := by
  simp only [update, hold, h]
  exact ⟨_, rfl⟩

theorem filter_debug (message : String) :
    [record Log.debug message].filter isCollision = [] := rfl

/-- A draft that is committed is told of with the first table that is called alike. -/
theorem create_filter (h : (s.create d).result = some t) :
    (s.create d).records.filter isCollision = warnings (s.create d).store.tables t := by
  obtain ⟨hgate, rfl, htables⟩ := create_result_eq_some h
  obtain ⟨message, hrecords⟩ := @create_records s d hgate
  have hcollision := collisionRecords_eq s (s.settle s.ids.first d)
  rw [htables, warnings, namesakes_append_self, ← warnings, ← filter_warnings, ← hcollision, hrecords]
  simp only [List.filter_append, filter_settleRecords, filter_debug, List.nil_append, List.append_nil]
  rfl

theorem update_filter {id : String} (h : (s.update id d).result = some t) :
    (s.update id d).records.filter isCollision = warnings (s.update id d).store.tables t := by
  obtain ⟨old, hold, rfl, htables⟩ := update_result_eq_some h
  obtain ⟨message, hrecords⟩ := update_records hold (update_gate h)
  have hcollision := collisionRecords_eq (s.beforeUpdate old d) ((s.beforeUpdate old d).settle old.id d)
  rw [htables, warnings, namesakes_replaceFirst, ← warnings, ← filter_warnings, ← hcollision, hrecords]
  simp only [List.filter_append, filter_settleRecords, filter_demotionRecords, filter_debug,
    List.nil_append, List.append_nil]
  rfl

theorem create_filter_refused (h : (s.create d).result = none) :
    (s.create d).records.filter isCollision = [] := by
  unfold create
  split
  · next hgate => exact absurd hgate (create_result_eq_none.1 h)
  · exact filter_refused d.name _ _

theorem update_filter_refused {id : String} (h : (s.update id d).result = none) :
    (s.update id d).records.filter isCollision = [] := by
  unfold update at h ⊢
  split
  · exact filter_unknown id
  · next old hold =>
    split
    · next hgate => simp [hold, hgate] at h
    · exact filter_refused d.name _ _

theorem importDdl_filter (s : Store String) (text : String) :
    (s.importDdl text).records.filter isCollision = [] := by
  unfold importDdl
  split
  · exact filter_importRecords text _
  · rfl

theorem delete_filter (s : Store String) (id : String) :
    (s.delete id).records.filter isCollision = [] := by
  unfold delete
  split
  · rfl
  · exact filter_debug _

/-- A call that is made with a draft tells of the clashes of the table that it writes, and any other call
of none. -/
theorem filter_records (s : Store String) (a : Action) :
    (∀ t, a.draft?.isSome = true → Writes s a t →
      (records s a).filter isCollision = warnings (step s a).tables t) ∧
    ((∀ t, a.draft?.isSome = true → ¬ Writes s a t) → (records s a).filter isCollision = []) := by
  cases a with
  | create d =>
    refine ⟨fun t _ h => ?_, fun h => ?_⟩
    · cases h with
      | created answer => exact create_filter answer
    · apply create_filter_refused
      exact Option.eq_none_iff_forall_ne_some.2 fun t ht => h t rfl (.created ht)
  | update id d =>
    refine ⟨fun t _ h => ?_, fun h => ?_⟩
    · cases h with
      | updated answer => exact update_filter answer
    · apply update_filter_refused
      exact Option.eq_none_iff_forall_ne_some.2 fun t ht => h t rfl (.updated ht)
  | delete id => exact ⟨fun _ hd => (nomatch hd), fun _ => delete_filter s id⟩
  | importDdl text => exact ⟨fun _ hd => (nomatch hd), fun _ => importDdl_filter s text⟩
  | clear => exact ⟨fun _ hd => (nomatch hd), fun _ => rfl⟩

/-- The calls with a draft warn as they should in every store that calls can reach: once for the table that
they write if it clashes with another one, naming the first such table, and never otherwise. An import
never warns, so it tells of the clashes it brings about only if there are none. -/
theorem run_announces (ids : TableId.Supply) (actions : List Action) (a : Action) :
    (∀ t, a.draft?.isSome = true → Writes (run ids actions) a t →
      (records (run ids actions) a).filter isCollision = warnings (step (run ids actions) a).tables t) ∧
    (∀ text, (records (run ids actions) (.importDdl text)).filter isCollision = []) ∧
    (Announces (run ids actions) a ↔
      ∀ text, a = .importDdl text →
        ∀ t, Writes (run ids actions) a t → ¬ Clashes (step (run ids actions) a).tables t) := by
  have hn : ((step (run ids actions) a).tables.map (·.id)).Nodup := by
    rw [← run_append_singleton]
    exact (run_whole ids (actions ++ [a])).ids_nodup
  obtain ⟨hdraft, hother⟩ := filter_records (run ids actions) a
  refine ⟨hdraft, importDdl_filter (run ids actions), ?_, ?_⟩
  · rintro h text rfl t hwrites hclash
    obtain ⟨r, hr, hcollision⟩ := h.told t hwrites hclash
    exact List.filter_eq_nil_iff.1 (importDdl_filter (run ids actions) text) r hr hcollision
  · intro himport
    constructor
    · intro t hwrites hclash
      have hd : a.draft?.isSome = true := by
        by_contra hnone
        obtain ⟨text, -, rfl, -⟩ := hwrites.of_draft?_eq_none (by simpa using hnone)
        exact himport text rfl t hwrites hclash
      have hwarned : (records (run ids actions) a).filter isCollision ≠ [] := by
        rw [hdraft t hd hwrites, Ne, warnings_eq_nil]
        exact (clashes_iff hn hwrites.mem_step).1 hclash
      obtain ⟨r, hr⟩ := List.exists_mem_of_ne_nil _ hwarned
      exact ⟨r, List.mem_filter.1 hr⟩
    · intro hfree r hr
      have hsilent : (records (run ids actions) a).filter isCollision = [] := by
        by_cases hw : ∃ t, a.draft?.isSome = true ∧ Writes (run ids actions) a t
        · obtain ⟨t, hd, hwrites⟩ := hw
          rw [hdraft t hd hwrites, warnings_eq_nil]
          exact not_not.1 (mt (clashes_iff hn hwrites.mem_step).2 (hfree t hwrites))
        · exact hother fun t hd hwrites => hw ⟨t, hd, hwrites⟩
      exact Bool.eq_false_iff.2 (List.filter_eq_nil_iff.1 hsilent r hr)

/-- The draft of a table with one column. -/
def streetDraft (name : String) : Draft String :=
  ⟨name, "", [⟨"id", "int", none, true, false, false, false, Reference.unset⟩], none⟩

def streetTable (number : Nat) (name : String) : Table String :=
  ⟨TableId.ofNumber number, name, "", (streetDraft name).columns⟩

theorem announces_streets :
    Writes (run .counter [.create (streetDraft "Straße")]) (.create (streetDraft "STRASSE"))
      (streetTable 2 "STRASSE") ∧
    (records (run .counter [.create (streetDraft "Straße")]) (.create (streetDraft "STRASSE"))).filter
      isCollision = [collision "STRASSE" "Straße"] ∧
    Announces (run .counter [.create (streetDraft "Straße")]) (.create (streetDraft "STRASSE")) := by
  have hwrites : Writes (run .counter [.create (streetDraft "Straße")]) (.create (streetDraft "STRASSE"))
      (streetTable 2 "STRASSE") := .created (by decide +kernel)
  obtain ⟨htold, -, hannounces⟩ :=
    run_announces .counter [.create (streetDraft "Straße")] (.create (streetDraft "STRASSE"))
  refine ⟨hwrites, ?_, hannounces.2 fun _ h => nomatch h⟩
  rw [htold _ rfl hwrites]
  decide +kernel

/-- A text brings in a table that is called like one in the store, and nothing is told of it. -/
theorem not_announces_importedStreet : ¬ Announces (run .counter [.create (streetDraft "street")])
    (.importDdl "CREATE TABLE Street (id INT);") := by
  intro h
  have hread : ((run .counter [.create (streetDraft "street")]).importDdl
      "CREATE TABLE Street (id INT);").result.map (·.tables) = .ok [streetTable 2 "Street"] := by
    decide +kernel
  obtain ⟨r, hr, htables⟩ := map_eq_ok.1 hread
  have hwrites : Writes (run .counter [.create (streetDraft "street")])
      (.importDdl "CREATE TABLE Street (id INT);") (streetTable 2 "Street") :=
    .imported hr (htables ▸ List.mem_singleton_self _)
  have hsilent : ∀ r ∈ records (run .counter [.create (streetDraft "street")])
      (.importDdl "CREATE TABLE Street (id INT);"), isCollision r = false := by decide +kernel
  obtain ⟨r, hr, hcollision⟩ :=
    h.told _ hwrites ⟨streetTable 1 "street", by decide +kernel, by decide +kernel, by decide +kernel⟩
  rw [hsilent r hr] at hcollision
  exact Bool.false_ne_true hcollision

end SchemaDesign.Store
