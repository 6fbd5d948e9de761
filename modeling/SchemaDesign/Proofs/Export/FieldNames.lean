import SchemaDesign.Proofs.Export.BackReference
import SchemaDesign.Proofs.Store.Keys
import SchemaDesign.Proofs.Store.References

/-! When the names of the fields of a Prisma model differ. Three sources of names meet in one model: the
columns, the relation fields and the back references. Where table names differ after their first letter is
lowered and no column is called like a table, the clashes that are left come from relation fields. -/
namespace SchemaDesign.Export.Prisma

variable {ts : List (Table String)} {t : Table String}

/-- The names that relation fields get where several columns lead into one table. -/
def appendedNames (ts : List (Table String)) (t : Table String) : List String :=
  t.columns.filterMap fun c => (c.target? ts).bind fun d =>
    if 1 < (t.linksInto ts d).length then some (lowerFirst d.name ++ capitalizeFirst c.name) else none

/-- Three groups of names, each group without repetition but for the middle one. -/
theorem nodup_append_append {α : Type} {as bs cs : List α} (ha : as.Nodup) (hc : cs.Nodup)
    (hac : ∀ a ∈ as, ∀ c ∈ cs, a ≠ c) :
    (as ++ bs ++ cs).Nodup ↔
      bs.Nodup ∧ (∀ b ∈ bs, b ∉ as) ∧ ∀ b ∈ bs, b ∉ cs := by
  rw [List.nodup_append, List.nodup_append]
  constructor
  · rintro ⟨⟨-, hb, hab⟩, -, habc⟩
    exact ⟨hb, fun b hb ha => hab b ha b hb rfl,
      fun b hb hc => habc b (List.mem_append_right _ hb) b hc rfl⟩
  · rintro ⟨hb, hba, hbc⟩
    refine ⟨⟨ha, hb, fun a ha b hb heq => hba b hb (heq ▸ ha)⟩, hc, ?_⟩
    intro a ha c hc heq
    rcases List.mem_append.1 ha with ha | ha
    · exact hac a ha c hc heq
    · exact hbc a ha (heq ▸ hc)

/-- A relation field is named for its column as well, or for its target alone, into which no other column
of the table leads. -/
theorem mem_relationNames (hn : t.columnNames.Nodup) {name : String} :
    name ∈ (relations ts t).map (·.2.name) ↔ name ∈ appendedNames ts t ∨
      ∃ d ∈ ts, (t.linksInto ts d).length = 1 ∧ name = lowerFirst d.name := by
  have hnames : (relations ts t).map (·.2.name) =
      t.columns.filterMap fun c => (c.target? ts).map fun d => t.relationName ts d c := by
    rw [relations, List.map_filterMap]
    apply List.filterMap_congr
    intro c hc
    rw [Option.map_map]
    cases hd : c.target? ts with
    | none => rfl
    | some d =>
      show some _ = some _
      simp only [Function.comp_apply, relationField, Table.get?_relationFields hn hc hd,
        Option.getD_some]
  simp only [hnames, appendedNames, List.mem_filterMap, Option.map_eq_some_iff, Option.bind_eq_some_iff]
  constructor
  · rintro ⟨c, hc, d, hd, rfl⟩
    unfold Table.relationName
    by_cases hmany : 1 < (t.linksInto ts d).length
    · rw [if_pos hmany]
      exact .inl ⟨c, hc, d, hd, if_pos hmany⟩
    · rw [if_neg hmany]
      have hpos := List.length_pos_of_mem (Table.mem_linksInto.2 ⟨hc, hd⟩)
      exact .inr ⟨d, (Column.target?_eq_some hd).2.1, by omega, rfl⟩
  · rintro (⟨c, hc, d, hd, happ⟩ | ⟨d, -, hone, rfl⟩)
    · by_cases hmany : 1 < (t.linksInto ts d).length
      · rw [if_pos hmany] at happ
        exact ⟨c, hc, d, hd, (if_pos hmany).trans (Option.some.inj happ)⟩
      · rw [if_neg hmany] at happ
        cases happ
    · obtain ⟨c, hsingle⟩ := List.length_eq_one_iff.1 hone
      have hc : c ∈ t.linksInto ts d := hsingle ▸ List.mem_singleton_self c
      obtain ⟨hc, hd⟩ := Table.mem_linksInto.1 hc
      exact ⟨c, hc, d, hd, if_neg (by omega)⟩

theorem backNames_eq (hid : (ts.map (·.id)).Nodup) (ht : t ∈ ts) :
    (backLinks ts t).map (·.2.name) =
      (ts.filter fun s => (firstEdge? ts t s).isSome).map (lowerFirst ·.name) := by
  rw [backLinks, backReferences_edges hid ht, List.map_map, ← List.filterMap_eq_map,
    ← List.filterMap_eq_map, List.filterMap_filterMap, List.filterMap_filter]
  apply List.filterMap_congr
  intro s _
  cases he : firstEdge? ts t s with
  | none => rfl
  | some e =>
    show some (lowerFirst e.source.name) = some (lowerFirst s.name)
    rw [(firstEdge?_eq_some he).1]

theorem mem_backNames (hid : (ts.map (·.id)).Nodup) (ht : t ∈ ts) {name : String} :
    name ∈ (backLinks ts t).map (·.2.name) ↔
      ∃ s ∈ ts, s ≠ t ∧ s.linksInto ts t ≠ [] ∧ name = lowerFirst s.name := by
  have hsame : ∀ s ∈ ts, s.id ≠ t.id ↔ s ≠ t := fun s hs =>
    not_congr ⟨Table.eq_of_id_eq hid hs ht, congrArg Table.id⟩
  simp only [backNames_eq hid ht, List.mem_map, List.mem_filter, firstEdge?_isSome]
  constructor
  · rintro ⟨s, ⟨hs, hne, hlinks⟩, rfl⟩
    exact ⟨s, hs, (hsame s hs).1 hne, hlinks, rfl⟩
  · rintro ⟨s, hs, hne, hlinks, rfl⟩
    exact ⟨s, ⟨hs, (hsame s hs).2 hne, hlinks⟩, rfl⟩

/-- The names differ if the relation fields have different names, an appended name is none of a column or
a back reference, and no table at the other end of a single column has a back reference as well. -/
theorem nodup_fieldNames (hid : (ts.map (·.id)).Nodup) (ht : t ∈ ts) (hn : t.columnNames.Nodup)
    (htables : (ts.map (lowerFirst ·.name)).Nodup)
    (hcolumns : ∀ c ∈ t.columns, ∀ u ∈ ts, c.name ≠ lowerFirst u.name) :
    (fieldNames ts t).Nodup ↔
      ((relations ts t).map (·.2.name)).Nodup ∧
      (∀ name ∈ appendedNames ts t, name ∉ t.columnNames ∧
        ∀ s ∈ ts, s ≠ t → s.linksInto ts t ≠ [] → name ≠ lowerFirst s.name) ∧
      ∀ s ∈ ts, s ≠ t → (t.linksInto ts s).length = 1 → s.linksInto ts t = [] := by
  have hsplit : fieldNames ts t =
      t.columnNames ++ (relations ts t).map (·.2.name) ++ (backLinks ts t).map (·.2.name) := by
    simp only [fieldNames, fields, scalarFields, Table.columnNames, List.map_append, List.map_map]
    rfl
  have hback : ((backLinks ts t).map (·.2.name)).Nodup := by
    rw [backNames_eq hid ht]
    exact htables.sublist (List.filter_sublist.map _)
  have hfree : ∀ name ∈ t.columnNames, ∀ u ∈ ts, name ≠ lowerFirst u.name :=
    List.forall_mem_map.2 hcolumns
  have hcolumnBack : ∀ a ∈ t.columnNames, ∀ b ∈ (backLinks ts t).map (·.2.name), a ≠ b := by
    intro a ha b hb heq
    obtain ⟨s, hs, -, -, rfl⟩ := (mem_backNames hid ht).1 hb
    exact hfree a ha s hs heq
  rw [hsplit, nodup_append_append hn hback hcolumnBack]
  apply and_congr_right
  intro _
  constructor
  · rintro ⟨hcol, hlinks⟩
    refine ⟨fun name hname => ?_, fun s hs hne hone => ?_⟩
    · have hmem := (mem_relationNames hn).2 (.inl hname)
      exact ⟨hcol name hmem, fun s hs hne hlink heq =>
        hlinks name hmem ((mem_backNames hid ht).2 ⟨s, hs, hne, hlink, heq⟩)⟩
    · by_contra hlink
      have hmem := (mem_relationNames hn).2 (.inr ⟨s, hs, hone, rfl⟩)
      exact hlinks _ hmem ((mem_backNames hid ht).2 ⟨s, hs, hne, hlink, rfl⟩)
  · rintro ⟨happended, hsingle⟩
    refine ⟨fun name hname hcol => ?_, fun name hname hmem => ?_⟩
    · rcases (mem_relationNames hn).1 hname with happ | ⟨d, hd, -, rfl⟩
      · exact (happended name happ).1 hcol
      · exact hfree _ hcol d hd rfl
    · obtain ⟨s, hs, hne, hlink, rfl⟩ := (mem_backNames hid ht).1 hmem
      rcases (mem_relationNames hn).1 hname with happ | ⟨d, hd, hone, heq⟩
      · exact (happended _ happ).2 s hs hne hlink rfl
      · obtain rfl : s = d := List.inj_on_of_nodup_map htables hs hd heq
        exact hlink (hsingle s hs hne hone)

end SchemaDesign.Export.Prisma

namespace SchemaDesign.Store

open Export.Prisma

/-- When the field names of every model differ, in any store that calls can reach whose table names differ
after their first letter is lowered and in which no column is called like a table. -/
theorem run_fieldNames (ids : TableId.Supply) (actions : List Action)
    (htables : ((run ids actions).tables.map (lowerFirst ·.name)).Nodup)
    (hcolumns : ∀ t ∈ (run ids actions).tables, ∀ c ∈ t.columns, ∀ u ∈ (run ids actions).tables,
      c.name ≠ lowerFirst u.name) :
    ∀ t ∈ (run ids actions).tables,
      modelLines (run ids actions).tables (edges (run ids actions).tables) t =
        heading t ++ (fields (run ids actions).tables t).map Field.line ++ ["\x7d"] ∧
      ((fieldNames (run ids actions).tables t).Nodup ↔
        ((relations (run ids actions).tables t).map (·.2.name)).Nodup ∧
        (∀ name ∈ appendedNames (run ids actions).tables t, name ∉ t.columnNames ∧
          ∀ s ∈ (run ids actions).tables, s ≠ t → s.linksInto (run ids actions).tables t ≠ [] →
            name ≠ lowerFirst s.name) ∧
        ∀ s ∈ (run ids actions).tables, s ≠ t → (t.linksInto (run ids actions).tables s).length = 1 →
          s.linksInto (run ids actions).tables t = []) := by
  intro t ht
  exact ⟨modelLines_eq _ t, nodup_fieldNames (run_whole ids actions).ids_nodup ht
    (run_keyed ids actions t ht).names_nodup htables (hcolumns t ht)⟩

/-- Two columns of a table lead into another one, from which nothing leads back. -/
def orderedRun : List Action :=
  [.importDdl "CREATE TABLE users (id INT); CREATE TABLE orders (buyer INT REFERENCES users(id), payer INT REFERENCES users(id));"]

def orderedTables : List (Table String) :=
  [⟨TableId.ofNumber 1, "users", "", [⟨"id", "int", none, true, false, false, false, Reference.unset⟩]⟩,
   ⟨TableId.ofNumber 2, "orders", "",
      [⟨"buyer", "int", none, true, false, false, true, ⟨TableId.ofNumber 1, "id"⟩⟩,
       ⟨"payer", "int", none, true, false, false, true, ⟨TableId.ofNumber 1, "id"⟩⟩]⟩]

theorem fieldNames_orderedRun : (run .counter orderedRun).tables = orderedTables ∧
    (orderedTables.map (lowerFirst ·.name)).Nodup ∧
    (∀ t ∈ orderedTables, ∀ c ∈ t.columns, ∀ u ∈ orderedTables, c.name ≠ lowerFirst u.name) ∧
    orderedTables.map (fieldNames orderedTables) =
      [["id", "orders"], ["buyer", "payer", "usersBuyer", "usersPayer"]] ∧
    ∀ t ∈ orderedTables, (fieldNames orderedTables t).Nodup := by
  have hrun : (run .counter orderedRun).tables = orderedTables := by decide +kernel
  have htables : (orderedTables.map (lowerFirst ·.name)).Nodup := by decide +kernel
  have hcolumns : ∀ t ∈ orderedTables, ∀ c ∈ t.columns, ∀ u ∈ orderedTables,
      c.name ≠ lowerFirst u.name := by decide +kernel
  have hnames := run_fieldNames .counter orderedRun
  rw [hrun] at hnames
  refine ⟨hrun, htables, hcolumns, by decide +kernel, fun t ht => ?_⟩
  apply (hnames htables hcolumns t ht).2.2
  revert t
  decide +kernel

/-- Two tables with one key each into the other. -/
def mutualRun : List Action :=
  [.importDdl "CREATE TABLE a (x INT REFERENCES b(y)); CREATE TABLE b (y INT REFERENCES a(x));"]

/-- In the model of the first one, the relation field and the back reference are both called `b`. -/
theorem not_nodup_fieldNames_mutualRun :
    ((run .counter mutualRun).tables.map (lowerFirst ·.name)).Nodup ∧
    (∀ t ∈ (run .counter mutualRun).tables, ∀ c ∈ t.columns, ∀ u ∈ (run .counter mutualRun).tables,
      c.name ≠ lowerFirst u.name) ∧
    ¬ ∀ t ∈ (run .counter mutualRun).tables, (fieldNames (run .counter mutualRun).tables t).Nodup := by
  have hrun : (run .counter mutualRun).tables =
      [⟨TableId.ofNumber 1, "a", "",
          [⟨"x", "int", none, true, false, false, true, ⟨TableId.ofNumber 2, "y"⟩⟩]⟩,
       ⟨TableId.ofNumber 2, "b", "",
          [⟨"y", "int", none, true, false, false, true, ⟨TableId.ofNumber 1, "x"⟩⟩]⟩] := by
    decide +kernel
  rw [hrun]
  decide +kernel

end SchemaDesign.Store
