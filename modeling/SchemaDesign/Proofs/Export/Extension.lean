import Mathlib.Data.List.Basic
import SchemaDesign.Export.Jpa
import SchemaDesign.Export.Sql

/-! Code that is written for one table after another. Of the other tables a block shows only where the
foreign keys of its own table lead, so a block stays as it is when tables are added that none of them
leads to. -/
namespace SchemaDesign

variable {τ : Type} [BEq τ] [Label τ] {ts us : List (Table τ)} {t : Table τ}

theorem Text.concat_append (ss rs : List String) :
    Text.concat (ss ++ rs) = Text.concat ss ++ Text.concat rs := by
  induction ss with
  | nil => rw [List.nil_append, Text.concat, String.empty_append]
  | cons s ss ih => rw [List.cons_append, Text.concat, Text.concat, ih, String.append_assoc]

/-- The columns of a table find the same targets among other tables. -/
def Table.SameTargets (ts us : List (Table τ)) (t : Table τ) : Prop :=
  ∀ c ∈ t.columns, c.target? us = c.target? ts

namespace Table.SameTargets

theorem relationTargets (h : t.SameTargets ts us) : t.relationTargets us = t.relationTargets ts :=
  List.foldl_ext _ _ [] fun found c hc => by rw [h c hc]

theorem relationFields (h : t.SameTargets ts us) : t.relationFields us = t.relationFields ts := by
  rw [Table.relationFields, h.relationTargets]
  rfl

theorem createTable (h : t.SameTargets ts us) :
    Export.Sql.createTable us t = Export.Sql.createTable ts t := by
  have hkeys : t.columns.filterMap (Export.Sql.foreignKeyClause? us) =
      t.columns.filterMap (Export.Sql.foreignKeyClause? ts) :=
    List.filterMap_congr fun c hc => by rw [Export.Sql.foreignKeyClause?, h c hc]; rfl
  unfold Export.Sql.createTable Export.Sql.clauses
  rw [hkeys]

theorem columnField (h : t.SameTargets ts us) (relations : List (τ × String)) :
    t.columns.flatMap (Export.Jpa.columnField us relations) =
      t.columns.flatMap (Export.Jpa.columnField ts relations) := by
  rw [List.flatMap_def, List.flatMap_def]
  refine congrArg List.flatten (List.map_congr_left fun c hc => ?_)
  rw [Export.Jpa.columnField, Export.Jpa.declaration, h c hc]
  rfl

theorem entity (h : t.SameTargets ts us) : Export.Jpa.entity us t = Export.Jpa.entity ts t := by
  rw [Export.Jpa.entity, Export.Jpa.entityLines, h.relationFields, h.columnField]
  rfl

end Table.SameTargets

namespace Export

variable {added : List (Table τ)}

/-- The blocks of added tables come behind those of the others. -/
theorem Sql.generate_append (h : ∀ t ∈ ts, t.SameTargets ts (ts ++ added)) :
    Sql.generate (ts ++ added) =
      Sql.generate ts ++ Text.concat (added.map (Sql.createTable (ts ++ added))) := by
  have hmap : ts.map (Sql.createTable (ts ++ added)) = ts.map (Sql.createTable ts) :=
    List.map_congr_left fun t ht => (h t ht).createTable
  rw [Sql.generate, List.map_append, Text.concat_append, hmap, Sql.generate]

theorem Jpa.generate_append (h : ∀ t ∈ ts, t.SameTargets ts (ts ++ added)) (package : String) :
    Jpa.generate package (ts ++ added) =
      Jpa.generate package ts ++ Text.concat (added.map (Jpa.entity (ts ++ added))) := by
  have hmap : ts.map (Jpa.entity (ts ++ added)) = ts.map (Jpa.entity ts) :=
    List.map_congr_left fun t ht => (h t ht).entity
  rw [Jpa.generate, List.map_append, Text.concat_append, hmap, Jpa.generate, ← String.append_assoc]

end Export

end SchemaDesign
