import SchemaDesign.Proofs.Ddl.Trace

/-! The foreign keys of a table, told from the pieces of its body. The last clause for a column gives its
target; without a clause it is the target inside the column's own definition. -/
namespace SchemaDesign.Ddl

/-- The name under which a piece defines a column, with the target that stands inside the definition. -/
def Piece.own? : Piece → Option (String × Option Target)
  | .column d inlined =>
      if Validation.isValidName (String.ofList d.name) then some (String.ofList d.name, inlined) else none
  | _ => none

/-- The columns that pieces define, in order, with the targets inside their definitions. -/
def ownTargets (ps : List (List Char)) : List (String × Option Target) :=
  ps.filterMap fun p => (Piece.ofText p).own?

/-- The target inside the definition of a column, which is the first under its name. -/
def ownTarget? (name : String) (ps : List (List Char)) : Option Target :=
  (Assoc.get? name (ownTargets ps)).join

/-- The target that the pieces give the column of a name. -/
def target? (name : String) (ps : List (List Char)) : Option Target :=
  (lastTarget? name ps).or (ownTarget? name ps)

variable {ps : List (List Char)} {p : List Char} {name : String}

theorem Piece.own?_map_fst (q : Piece) : q.own?.map (·.1) = q.definition?.map (String.ofList ·.name) := by
  cases q with
  | column d inlined =>
    rw [own?, definition?]
    split <;> rfl
  | _ => rfl

theorem ownTargets_map_fst (ps : List (List Char)) : (ownTargets ps).map (·.1) = definedNames ps := by
  rw [definedNames, definitions, ownTargets, List.map_filterMap, List.map_filterMap]
  simp only [Piece.own?_map_fst]

@[simp] theorem ownTargets_append_singleton (ps : List (List Char)) (p : List Char) :
    ownTargets (ps ++ [p]) = ownTargets ps ++ (Piece.ofText p).own?.toList := by
  cases h : (Piece.ofText p).own? <;> simp [ownTargets, h]

/-- A piece that defines no new column changes nothing in the definitions. -/
theorem ownTarget?_append_of_taken
    (h : ∀ d, (Piece.ofText p).definition? = some d → String.ofList d.name ∈ definedNames ps) :
    ownTarget? name (ps ++ [p]) = ownTarget? name ps := by
  rw [ownTarget?, ownTarget?, ownTargets_append_singleton, Assoc.get?_append]
  by_cases hname : name ∈ definedNames ps
  · rw [← ownTargets_map_fst] at hname
    obtain ⟨own, hown⟩ := Option.ne_none_iff_exists'.1 (mt Assoc.get?_eq_none.1 (not_not_intro hname))
    rw [hown, Option.some_or]
  · have hother : Assoc.get? name (Piece.ofText p).own?.toList = none := by
      rw [Assoc.get?_eq_none, ← Option.toList_map, Piece.own?_map_fst, Option.mem_toList]
      intro hdefined
      obtain ⟨d, hd, rfl⟩ := Option.map_eq_some_iff.1 hdefined
      exact hname (h d hd)
    rw [hother, Option.or_none]

theorem ownTarget?_append_of_free {d : Definition} {inlined : Option Target}
    (hp : Piece.ofText p = .column d inlined)
    (valid : Validation.isValidName (String.ofList d.name) = true)
    (free : String.ofList d.name ∉ definedNames ps) :
    ownTarget? name (ps ++ [p]) =
      if String.ofList d.name = name then inlined else ownTarget? name ps := by
  have hown : (Piece.ofText p).own? = some (String.ofList d.name, inlined) := by
    rw [hp, Piece.own?, if_pos valid]
  rw [ownTarget?, ownTarget?, ownTargets_append_singleton, Assoc.get?_append, hown]
  by_cases hname : String.ofList d.name = name
  · rw [← ownTargets_map_fst, hname] at free
    rw [Assoc.get?_eq_none.2 free, if_pos hname]
    simp [Assoc.get?, hname]
  · rw [if_neg hname]
    simp [Assoc.get?, hname]

theorem lastTarget?_eq_none : lastTarget? name ps = none ↔ name ∉ (foreignClauses ps).map (·.1) := by
  unfold lastTarget?
  rw [Option.map_eq_none_iff, List.getLast?_eq_none_iff, List.filter_eq_nil_iff, List.mem_map,
    not_exists]
  exact forall_congr' fun e => by simp only [beq_iff_eq, not_and]

namespace Body

variable {b : Body}

/-- Without a clause for it, the target of a column is that of its own definition. -/
theorem get?_of_no_clause (h : ofPieces ps = .ok b) (hclause : lastTarget? name ps = none) :
    Assoc.get? name b.foreignKeys = ownTarget? name ps := by
  induction ps using List.reverseRecOn generalizing b with
  | nil =>
    cases h
    rfl
  | append_singleton ps p ih =>
    rw [ofPieces_append_singleton] at h
    obtain ⟨a, ha, hadd⟩ := bind_eq_ok.1 h
    have hnames := mem_names_iff ha
    cases adding_of_add hadd with
    | refused reason why =>
      obtain ⟨-, hforeign, htaken⟩ := of_refusal? why
      rw [lastTarget?_append_of_none name hforeign] at hclause
      rw [ownTarget?_append_of_taken fun d hd => (hnames _).1 (htaken d hd)]
      exact ih (b := a) ha hclause
    | primaryKey key clause =>
      rw [lastTarget?_append_of_none name (by rw [clause]; rfl)] at hclause
      rw [ownTarget?_append_of_taken fun d hd => by rw [clause] at hd; cases hd]
      exact ih (b := a) ha hclause
    | foreignKey key target clause =>
      rw [lastTarget?_append_of_clause name clause] at hclause
      split at hclause
      · cases hclause
      · next hkey =>
        rw [ownTarget?_append_of_taken fun d hd => by rw [clause] at hd; cases hd]
        exact (Assoc.get?_put_of_ne (Ne.symm hkey) target a.foreignKeys).trans (ih ha hclause)
    | column d inlined len defines valid free length =>
      rw [lastTarget?_append_of_none name (by rw [defines]; rfl)] at hclause
      rw [hnames] at free
      rw [ownTarget?_append_of_free defines valid free]
      have hold := ih ha hclause
      split
      · next hname =>
        -- the definition is the first of its name, so no target waits yet
        have hnone : Assoc.get? (String.ofList d.name) a.foreignKeys = none := by
          rw [hname] at free ⊢
          rw [hold, ownTarget?, Assoc.get?_eq_none.2 (by rwa [ownTargets_map_fst]), Option.join_none]
        rw [← hname]
        cases inlined with
        | none => exact hnone
        | some target => exact Assoc.get?_putNew_of_none hnone target
      · next hname =>
        cases inlined with
        | none => exact hold
        | some target => exact (Assoc.get?_putNew_of_ne (Ne.symm hname) target _).trans hold

theorem get?_foreignKeys (h : ofPieces ps = .ok b) (name : String) :
    Assoc.get? name b.foreignKeys = target? name ps := by
  unfold target?
  cases hlast : lastTarget? name ps with
  | some target => exact (shows_ofPieces h).targets name target hlast
  | none => rw [get?_of_no_clause h hlast, Option.none_or]

end Body

/-- A column has the foreign key that the pieces of its table give it: it is one if a clause names it or
its definition has a target, and then it leads where the last clause says, or else its definition. -/
structure Led (ts : List (Table String)) (ps : List (List Char)) (c : Column String) : Prop where
  foreignKey : c.foreignKey = true ↔
    c.name ∈ (foreignClauses ps).map (·.1) ∨ (ownTarget? c.name ps).isSome = true
  clause : ∀ target, lastTarget? c.name ps = some target → c.references = target.reference ts
  own : ∀ target, lastTarget? c.name ps = none → ownTarget? c.name ps = some target →
    c.references = target.reference ts
  plain : c.foreignKey = false → c.references = Reference.unset

theorem target?_isSome : (target? name ps).isSome = true ↔
    name ∈ (foreignClauses ps).map (·.1) ∨ (ownTarget? name ps).isSome = true := by
  have hlast : (lastTarget? name ps).isSome = true ↔ name ∈ (foreignClauses ps).map (·.1) := by
    rw [Option.isSome_iff_ne_none, ne_eq, lastTarget?_eq_none, not_not]
  rw [target?, Option.isSome_or, Bool.or_eq_true, hlast]

section Table

variable {batch : List Pending} {q : Pending} {id : String} {st : List Char × List Char} {b : Body}

theorem led_resolveColumn (h : q.ReadFrom id st b) (batch : List Pending) {c : Column String}
    (hc : c ∈ q.table.columns) :
    Led (batch.map (resolveTable batch)) (pieces st.2) (resolveColumn batch q c) := by
  have hget : Assoc.get? c.name q.foreignKeys = target? c.name (pieces st.2) := by
    rw [h.foreignKeys]
    exact Body.get?_foreignKeys h.pieces c.name
  obtain ⟨hflag, hunset⟩ := h.plain c hc
  cases htarget : target? c.name (pieces st.2) with
  | none =>
    have hsame : resolveColumn batch q c = c := by simp only [resolveColumn, hget, htarget]
    obtain ⟨hlast, hown⟩ := Option.or_eq_none_iff.1 htarget
    rw [hsame]
    refine ⟨?_, fun _ he => ?_, fun _ _ he => ?_, fun _ => hunset⟩
    · rw [← target?_isSome, htarget, hflag]
      rfl
    · rw [hlast] at he
      cases he
    · rw [hown] at he
      cases he
  | some target =>
    obtain ⟨hkey, hreference⟩ := resolveColumn_of_target batch (hget.trans htarget)
    refine ⟨?_, fun last he => ?_, fun own hlast he => ?_, fun hplain => ?_⟩
    · rw [resolveColumn_name, ← target?_isSome, htarget, hkey]
      rfl
    · rw [resolveColumn_name] at he
      rw [target?, he] at htarget
      cases htarget
      exact hreference
    · rw [resolveColumn_name] at hlast he
      rw [target?, hlast, he] at htarget
      cases htarget
      exact hreference
    · rw [hkey] at hplain
      cases hplain

/-- The columns of a table are those that the pieces define, each under its name once. -/
theorem columnNames_resolveTable (h : q.ReadFrom id st b) (batch : List Pending) :
    (resolveTable batch q).columnNames =
      (firsts (definitions (pieces st.2))).map (String.ofList ·.name) := by
  have hcolumns : q.table.columns = PrimaryKey.normalise b.primaryKey b.columns := by rw [h.table]
  rw [resolveTable_columnNames, Table.columnNames, hcolumns, PrimaryKey.map_name_normalise,
    (Body.shows_ofPieces h.pieces).columns, List.map_map]
  rfl

end Table

end SchemaDesign.Ddl
