import Mathlib.Data.List.Nodup
import SchemaDesign.Model.TableId

/-! Which ids are still to come: those that have been given out are not among them. -/
namespace SchemaDesign.TableId.Supply

/-- The first ids of a supply. -/
def take (ids : Supply) (count : Nat) : List String := (List.range count).map ids.id

/-- Seen from what is left of a supply, an id that has been given out, or was never in it. -/
structure Given (ids : Supply) (id : String) : Prop where
  ne_empty : id ≠ ""
  past : ∀ n, ids.id n ≠ id

variable {ids : Supply} {id : String} {count : Nat}

theorem take_succ (ids : Supply) (count : Nat) :
    ids.take (count + 1) = ids.first :: (ids.drop 1).take count := by
  rw [take, List.range_succ_eq_map, List.map_cons, List.map_map]
  rfl

theorem nodup_take (ids : Supply) (count : Nat) : (ids.take count).Nodup :=
  List.nodup_range.map ids.injective

theorem Given.drop (h : ids.Given id) (count : Nat) : (ids.drop count).Given id :=
  ⟨h.ne_empty, fun n => h.past (n + count)⟩

theorem given_of_mem_take (h : id ∈ ids.take count) : (ids.drop count).Given id := by
  obtain ⟨n, hn, rfl⟩ := List.mem_map.1 h
  refine ⟨ids.ne_empty n, fun m hm => ?_⟩
  have hlt := List.mem_range.1 hn
  have := ids.injective hm
  omega

theorem given_first (ids : Supply) : (ids.drop 1).Given ids.first :=
  given_of_mem_take (List.mem_map.2 ⟨0, by simp, rfl⟩)

theorem Given.not_mem_take (h : ids.Given id) : id ∉ ids.take count := by
  intro hid
  obtain ⟨n, -, hn⟩ := List.mem_map.1 hid
  exact h.past n hn

end SchemaDesign.TableId.Supply
