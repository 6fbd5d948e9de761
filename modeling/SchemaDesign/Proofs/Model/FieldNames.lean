import Mathlib.Data.List.Nodup
import SchemaDesign.Proofs.Model.Relation

/-! When the relation fields of a table have different names. Each is named for its target, and where
several columns share a target the capitalized name of the column is put behind. Two things can still go
wrong: names that differ in the case of their first letter alone give one ending, and an ending can
complete the name of one target to that of another. -/
namespace SchemaDesign

/-- Two texts that begin differently are equal only if the shorter beginning is completed to the other by
what stands behind it. -/
theorem append_eq_append_of_ne {s s' x y : String} (hne : s ≠ s') :
    s ++ x = s' ++ y ↔
      (∃ w, w ≠ "" ∧ s' = s ++ w ∧ x = w ++ y) ∨ ∃ w, w ≠ "" ∧ s = s' ++ w ∧ y = w ++ x := by
  have hnonempty : ∀ {r r' w : String}, r ≠ r' → r' = r ++ w → w ≠ "" := by
    rintro r r' w hr rfl rfl
    exact hr String.append_empty.symm
  constructor
  · intro h
    have hlists : s.toList ++ x.toList = s'.toList ++ y.toList := by
      rw [← String.toList_append, h, String.toList_append]
    rcases List.append_eq_append_iff.1 hlists with ⟨w, hs, hx⟩ | ⟨w, hs, hy⟩
    · have hs : s' = s ++ String.ofList w := by rw [← String.toList_inj]; simpa using hs
      have hx : x = String.ofList w ++ y := by rw [← String.toList_inj]; simpa using hx
      exact .inl ⟨_, hnonempty hne hs, hs, hx⟩
    · have hs : s = s' ++ String.ofList w := by rw [← String.toList_inj]; simpa using hs
      have hy : y = String.ofList w ++ x := by rw [← String.toList_inj]; simpa using hy
      exact .inr ⟨_, hnonempty hne.symm hs, hs, hy⟩
  · rintro (⟨w, -, rfl, rfl⟩ | ⟨w, -, rfl, rfl⟩)
    · rw [String.append_assoc]
    · rw [String.append_assoc]

namespace Table

variable {ts : List (Table String)} {t d d' : Table String} {c c' : Column String}

/-- What is put behind the name of a target. -/
def ending (ts : List (Table String)) (t d : Table String) (c : Column String) : String :=
  if 1 < (t.linksInto ts d).length then capitalizeFirst c.name else ""

theorem relationName_eq_append (ts : List (Table String)) (t d : Table String) (c : Column String) :
    t.relationName ts d c = lowerFirst d.name ++ t.ending ts d c := by
  unfold relationName ending
  split
  · rfl
  · rw [String.append_empty]

/-- Columns of different names that resolve have fields of different names. -/
def DistinctFields (ts : List (Table String)) (t : Table String) : Prop :=
  ∀ c ∈ t.columns, ∀ c' ∈ t.columns, c.name ≠ c'.name →
    (c.target? ts).isSome = true → (c'.target? ts).isSome = true →
    Assoc.get? c.name (t.relationFields ts) ≠ Assoc.get? c'.name (t.relationFields ts)

instance (ts : List (Table String)) (t : Table String) : Decidable (t.DistinctFields ts) :=
  inferInstanceAs (Decidable (∀ c ∈ t.columns, ∀ c' ∈ t.columns, _ → _ → _ → _))

/-- A column that is not the only one to lead into `d` completes the name of `d` to that of `d'`, as the
field of a column that leads there has it. -/
def Completes (ts : List (Table String)) (t d d' : Table String) (c c' : Column String) : Prop :=
  1 < (t.linksInto ts d).length ∧ ∃ w, w ≠ "" ∧ lowerFirst d'.name = lowerFirst d.name ++ w ∧
    capitalizeFirst c.name = w ++ t.ending ts d' c'

theorem completes_iff : t.Completes ts d d' c c' ↔
    ∃ w, w ≠ "" ∧ lowerFirst d'.name = lowerFirst d.name ++ w ∧
      t.ending ts d c = w ++ t.ending ts d' c' := by
  unfold Completes
  constructor
  · rintro ⟨hmany, w, hw, hname, hends⟩
    refine ⟨w, hw, hname, ?_⟩
    rw [ending, if_pos hmany]
    exact hends
  · rintro ⟨w, hw, hname, hends⟩
    have hmany : 1 < (t.linksInto ts d).length := by
      by_contra hone
      rw [ending, if_neg hone] at hends
      exact hw (String.append_eq_empty_iff.1 hends.symm).1
    refine ⟨hmany, w, hw, hname, ?_⟩
    rw [ending, if_pos hmany] at hends
    exact hends

theorem linksInto_many (hc : c ∈ t.linksInto ts d) (hc' : c' ∈ t.linksInto ts d) (hne : c ≠ c') :
    1 < (t.linksInto ts d).length := by
  by_contra hone
  obtain ⟨i, hi, rfl⟩ := List.getElem_of_mem hc
  obtain ⟨j, hj, rfl⟩ := List.getElem_of_mem hc'
  have hij : i = j := by omega
  exact hne (by simp only [hij])

/-- Two columns that lead into one table have one name there exactly if their capitalized names agree. -/
theorem relationName_eq_same (hc : c ∈ t.linksInto ts d) (hc' : c' ∈ t.linksInto ts d) (hne : c ≠ c') :
    t.relationName ts d c = t.relationName ts d c' ↔ capitalizeFirst c.name = capitalizeFirst c'.name := by
  have hmany := linksInto_many hc hc' hne
  rw [relationName, relationName, if_pos hmany, if_pos hmany]
  exact String.append_right_inj _

/-- Two columns that lead into tables of different names have one name exactly if one of them completes
the name of its target to that of the other. -/
theorem relationName_eq_other (hne : lowerFirst d.name ≠ lowerFirst d'.name) :
    t.relationName ts d c = t.relationName ts d' c' ↔
      t.Completes ts d d' c c' ∨ t.Completes ts d' d c' c := by
  rw [relationName_eq_append, relationName_eq_append, append_eq_append_of_ne hne, completes_iff,
    completes_iff]

theorem not_completes_self : ¬ t.Completes ts d d c c' := by
  rintro ⟨-, w, hw, hname, -⟩
  apply hw
  exact (String.append_right_inj (lowerFirst d.name)).1 (hname.symm.trans String.append_empty.symm)

/-- Different columns that resolve have different names for their fields, wherever they lead. -/
theorem distinctFields_iff_names (hn : t.columnNames.Nodup) :
    t.DistinctFields ts ↔ ∀ d d' c c', c ∈ t.linksInto ts d → c' ∈ t.linksInto ts d' → c ≠ c' →
      t.relationName ts d c ≠ t.relationName ts d' c' := by
  constructor
  · intro h d d' c c' hc hc' hne hsame
    obtain ⟨hc, hd⟩ := mem_linksInto.1 hc
    obtain ⟨hc', hd'⟩ := mem_linksInto.1 hc'
    have hnames : c.name ≠ c'.name := fun heq => hne (List.inj_on_of_nodup_map hn hc hc' heq)
    apply h c hc c' hc' hnames (by rw [hd]; rfl) (by rw [hd']; rfl)
    rw [get?_relationFields hn hc hd, get?_relationFields hn hc' hd', hsame]
  · intro h c hc c' hc' hnames hsome hsome' hsame
    obtain ⟨d, hd⟩ := Option.isSome_iff_exists.1 hsome
    obtain ⟨d', hd'⟩ := Option.isSome_iff_exists.1 hsome'
    rw [get?_relationFields hn hc hd, get?_relationFields hn hc' hd'] at hsame
    apply h d d' c c' (mem_linksInto.2 ⟨hc, hd⟩) (mem_linksInto.2 ⟨hc', hd'⟩)
    · rintro rfl
      exact hnames rfl
    · exact Option.some.inj hsame

theorem linksInto_nodup (hn : t.columnNames.Nodup) : (t.linksInto ts d).Nodup :=
  (List.Nodup.of_map _ hn).filter _

/-- The fields of a table are different exactly if the capitalized names of the columns that share a target
are, and no column completes the name of its target to the field of one that leads elsewhere. -/
theorem distinctFields_iff (hn : t.columnNames.Nodup) (hts : (ts.map fun u => lowerFirst u.name).Nodup) :
    t.DistinctFields ts ↔
      (∀ d, ((t.linksInto ts d).map fun c => capitalizeFirst c.name).Nodup) ∧
      ∀ d d' c c', c ∈ t.linksInto ts d → c' ∈ t.linksInto ts d' → ¬ t.Completes ts d d' c c' := by
  have hlowered : ∀ {d d' : Table String} {c c' : Column String}, c ∈ t.linksInto ts d →
      c' ∈ t.linksInto ts d' → d ≠ d' → lowerFirst d.name ≠ lowerFirst d'.name := by
    intro d d' c c' hc hc' hne heq
    obtain ⟨-, hd, -, -⟩ := Column.target?_eq_some (mem_linksInto.1 hc).2
    obtain ⟨-, hd', -, -⟩ := Column.target?_eq_some (mem_linksInto.1 hc').2
    exact hne (List.inj_on_of_nodup_map hts hd hd' heq)
  rw [distinctFields_iff_names hn]
  constructor
  · intro h
    constructor
    · intro d
      apply List.Nodup.map_on _ (linksInto_nodup hn)
      intro c hc c' hc' hsame
      by_contra hne
      exact h d d c c' hc hc' hne ((relationName_eq_same hc hc' hne).2 hsame)
    · intro d d' c c' hc hc' hcompletes
      have hd : d ≠ d' := by
        rintro rfl
        exact not_completes_self hcompletes
      have hne : c ≠ c' := by
        rintro rfl
        have htarget := (mem_linksInto.1 hc).2.symm.trans (mem_linksInto.1 hc').2
        exact hd (Option.some.inj htarget)
      apply h d d' c c' hc hc' hne
      exact (relationName_eq_other (hlowered hc hc' hd)).2 (.inl hcompletes)
  · rintro ⟨hshared, hcompletes⟩ d d' c c' hc hc' hne hsame
    by_cases hd : d = d'
    · subst hd
      apply hne
      exact List.inj_on_of_nodup_map (hshared d) hc hc' ((relationName_eq_same hc hc' hne).1 hsame)
    · rcases (relationName_eq_other (hlowered hc hc' hd)).1 hsame with h | h
      · exact hcompletes d d' c c' hc hc' h
      · exact hcompletes d' d c' c hc' hc h

/-- A table of a name with one column, and a column that refers to it. -/
def plainTable (id name : String) : Table String :=
  ⟨id, name, "", [⟨"id", "int", none, true, false, false, false, Reference.unset⟩]⟩

def linkTo (id name : String) : Column String :=
  ⟨name, "int", none, true, false, false, true, ⟨id, "id"⟩⟩

/-- The name of one table begins that of the other. -/
def orderTables : List (Table String) := [plainTable "1" "Orders", plainTable "2" "OrdersEntry"]

/-- A table with columns that lead into the tables of orders. -/
def linesOf (links : List (String × String)) : Table String :=
  ⟨"3", "Lines", "", links.map fun (id, name) => linkTo id name⟩

def sharedLines : Table String := linesOf [("1", "item"), ("1", "note"), ("2", "item_2")]

theorem distinctFields_sharedLines :
    sharedLines.columnNames.Nodup ∧ (orderTables.map fun u => lowerFirst u.name).Nodup ∧
    sharedLines.DistinctFields orderTables ∧
    ∀ d d' c c', c ∈ sharedLines.linksInto orderTables d → c' ∈ sharedLines.linksInto orderTables d' →
      ¬ Completes orderTables sharedLines d d' c c' := by
  have hn : sharedLines.columnNames.Nodup := by decide +kernel
  have hts : (orderTables.map fun u => lowerFirst u.name).Nodup := by decide +kernel
  have hfields : sharedLines.DistinctFields orderTables := by decide +kernel
  exact ⟨hn, hts, hfields, ((distinctFields_iff hn hts).1 hfields).2⟩

/-- Two columns of one target that differ in the case of their first letter. -/
def caseLines : Table String := linesOf [("1", "item"), ("1", "Item")]

/-- The column `entry` completes the name of its target to that of the other one. -/
def completedLines : Table String := linesOf [("1", "item"), ("1", "entry"), ("2", "note")]

theorem not_distinctFields_lines :
    (orderTables.map fun u => lowerFirst u.name).Nodup ∧
    caseLines.columnNames.Nodup ∧ ¬ caseLines.DistinctFields orderTables ∧
    completedLines.columnNames.Nodup ∧ ¬ completedLines.DistinctFields orderTables := by
  decide +kernel

end Table

end SchemaDesign
