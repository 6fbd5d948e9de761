import SchemaDesign.Model.Relation
import SchemaDesign.Proofs.Assoc
import SchemaDesign.Proofs.Model.Reference

/-! The relation fields of a table whose columns have different names: one for each column that resolves,
named for its target, and for the column as well where others lead into the same table. -/
namespace SchemaDesign.Table

variable {ts : List (Table String)} {t d : Table String} {c : Column String}

/-- The columns of a table that lead into a table among others. -/
def linksInto (ts : List (Table String)) (t d : Table String) : List (Column String) :=
  t.columns.filter fun c => c.target? ts = some d

theorem mem_linksInto : c ∈ t.linksInto ts d ↔ c ∈ t.columns ∧ c.target? ts = some d := by
  rw [linksInto, List.mem_filter, decide_eq_true_iff]

/-- The name of the relation field of a column that leads into `d`. -/
def relationName (ts : List (Table String)) (t d : Table String) (c : Column String) : String :=
  if 1 < (t.linksInto ts d).length then lowerFirst d.name ++ capitalizeFirst c.name
  else lowerFirst d.name

theorem relationTargets_eq (ts : List (Table String)) (hn : t.columnNames.Nodup) :
    t.relationTargets ts = t.columns.filterMap fun c => (c.target? ts).map (c.name, ·) := by
  have hnodup : (([] : List (String × Table String)).map (·.1) ++ t.columns.map (·.name)).Nodup := hn
  rw [← List.nil_append (t.columns.filterMap _), relationTargets]
  -- along the columns no name is found a second time
  generalize ([] : List (String × Table String)) = found at hnodup ⊢
  generalize t.columns = cs at hnodup ⊢
  induction cs generalizing found with
  | nil => simp
  | cons c cs ih =>
    rw [List.map_cons, List.nodup_middle, List.nodup_cons] at hnodup
    rw [List.foldl_cons]
    cases hd : c.target? ts with
    | none =>
      rw [List.filterMap_cons_none (by rw [hd]; rfl)]
      exact ih found hnodup.2
    | some d =>
      have hnew : c.name ∉ found.map (·.1) := fun h => hnodup.1 (List.mem_append_left _ h)
      have hnext : ((found ++ [(c.name, d)]).map (·.1) ++ cs.map (·.name)).Nodup := by
        rw [List.map_append, List.append_assoc, List.map_singleton, List.singleton_append,
          List.nodup_middle, List.nodup_cons]
        exact hnodup
      have hput : Assoc.put c.name d found = found ++ [(c.name, d)] := Assoc.put_of_notMem hnew d
      rw [List.filterMap_cons_some (b := (c.name, d)) (by rw [hd]; rfl)]
      simp only [hput]
      rw [ih _ hnext, List.append_assoc, List.singleton_append]

theorem countP_relationTargets (hn : t.columnNames.Nodup) (hd : withId? ts d.id = some d) :
    ((t.relationTargets ts).countP fun other => other.2.id == d.id) = (t.linksInto ts d).length := by
  rw [relationTargets_eq ts hn, List.countP_filterMap, linksInto, ← List.countP_eq_length_filter]
  apply List.countP_congr
  intro c _
  cases hc : c.target? ts with
  | none => simp
  | some u =>
    have hsame : u.id = d.id ↔ u = d := by
      refine ⟨fun heq => Option.some.inj ?_, congrArg Table.id⟩
      rw [← hd, ← heq, Column.withId?_of_target? hc]
    simp [hsame]

/-- The relation field of a column that resolves is found under the name of the column. -/
theorem get?_relationFields (hn : t.columnNames.Nodup) (hc : c ∈ t.columns)
    (hd : c.target? ts = some d) :
    Assoc.get? c.name (t.relationFields ts) = some (t.relationName ts d c) := by
  have hmem : (c.name, d) ∈ t.relationTargets ts := by
    rw [relationTargets_eq ts hn]
    exact List.mem_filterMap.2 ⟨c, hc, by rw [hd]; rfl⟩
  have hkeys : ((t.relationTargets ts).map (·.1)).Nodup := by
    rw [relationTargets_eq ts hn, List.map_filterMap, List.Nodup, List.pairwise_filterMap]
    refine (List.pairwise_map.1 hn).imp fun hne x hx y hy => ?_
    simp only [Option.map_map, Option.map_eq_some_iff, Function.comp_apply] at hx hy
    obtain ⟨⟨-, -, rfl⟩, -, -, rfl⟩ := And.intro hx hy
    exact hne
  have hfind : (t.relationTargets ts).find? (·.1 == c.name) = some (c.name, d) :=
    (find?_key_eq_some hkeys).2 ⟨hmem, rfl⟩
  rw [Assoc.get?, relationFields, List.find?_map]
  simp only [Function.comp_def, hfind, Option.map_some]
  rw [countP_relationTargets hn (Column.withId?_of_target? hd)]
  rfl

end SchemaDesign.Table
