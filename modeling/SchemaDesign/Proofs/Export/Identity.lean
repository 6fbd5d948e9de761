import Mathlib.Data.List.Infix
import SchemaDesign.Proofs.Export.Entity

/-! The identity that an entity without a key gets beside its other fields. Its name is chosen by whether a
column is called `id`; a relation field is called like it where the name of its target makes it so, since
no generated name is compared with another. -/
namespace SchemaDesign

/-! Names with a capital inside -/

section Capitals

variable {s r name : String}

theorem toList_capitalizeFirst_head (hr : r ≠ "") :
    ∃ d ∈ (capitalizeFirst r).toList.head?, d.toNat < 97 ∨ 122 < d.toNat := by
  unfold capitalizeFirst
  cases hchars : r.toList with
  | nil => exact absurd (String.toList_eq_nil_iff.1 hchars) hr
  | cons c rest =>
    obtain ⟨d, ds, hupper⟩ := List.exists_cons_of_ne_nil (Text.upperOf_ne_nil c)
    have hd : d ∈ Text.upperOf c := hupper ▸ List.mem_cons_self
    refine ⟨d, ?_, Text.upperOf_notSmall c d hd⟩
    simp [hupper]

/-- The ends of a name that a capitalized text can be: those that do not begin with a small letter. -/
def capitalEnds (name : String) : List (List Char) :=
  name.toList.tails.filter fun l => l.head?.any fun d => d.toNat < 97 || 122 < d.toNat

theorem capitalizeFirst_mem_capitalEnds (hr : r ≠ "") (h : s ++ capitalizeFirst r = name) :
    (capitalizeFirst r).toList ∈ capitalEnds name := by
  obtain ⟨d, hd, hcapital⟩ := toList_capitalizeFirst_head hr
  refine List.mem_filter.2 ⟨?_, ?_⟩
  · rw [List.mem_tails, ← h, String.toList_append]
    exact List.suffix_append _ _
  · simpa [Option.mem_def.1 hd] using hcapital

theorem append_capitalizeFirst_ne_id (hr : r ≠ "") : s ++ capitalizeFirst r ≠ "id" := by
  intro h
  have hends : capitalEnds "id" = [] := by decide
  exact absurd (capitalizeFirst_mem_capitalEnds hr h) (by rw [hends]; exact List.not_mem_nil)

theorem append_capitalizeFirst_eq_generatedId (hr : r ≠ "") :
    s ++ capitalizeFirst r = "generatedId" ↔ s = "generated" ∧ capitalizeFirst r = "Id" := by
  constructor
  · intro h
    have hends : capitalEnds "generatedId" = ["Id".toList] := by decide
    have hmem := capitalizeFirst_mem_capitalEnds hr h
    rw [hends, List.mem_singleton, String.toList_inj] at hmem
    have hparts : "generatedId" = "generated" ++ "Id" := rfl
    rw [hmem, hparts, String.append_left_inj] at h
    exact ⟨h, hmem⟩
  · rintro ⟨rfl, hcapital⟩
    rw [hcapital]
    rfl

end Capitals

namespace Export.Jpa

variable {ts : List (Table String)} {t d : Table String} {c : Column String}

theorem identityName_eq (t : Table String) :
    identityName t = if "id" ∈ t.columnNames then "generatedId" else "id" :=
  if_congr Table.column?_isSome rfl rfl

/-- What makes the relation field of a column that leads into `d` be called like the identity: the name of
`d`, to which nothing is appended, or together with the column where others lead into `d` too. -/
def NamedLikeIdentity (ts : List (Table String)) (t d : Table String) (c : Column String) : Prop :=
  (lowerFirst d.name = identityName t ∧ ((t.linksInto ts d).length ≤ 1 ∨ c.name = "")) ∨
    (1 < (t.linksInto ts d).length ∧ "id" ∈ t.columnNames ∧
      lowerFirst d.name = "generated" ∧ capitalizeFirst c.name = "Id")

instance (ts : List (Table String)) (t d : Table String) (c : Column String) :
    Decidable (NamedLikeIdentity ts t d c) :=
  inferInstanceAs (Decidable ((_ ∧ (_ ∨ _)) ∨ (_ ∧ _ ∧ _ ∧ _)))

theorem relationName_eq_identityName :
    t.relationName ts d c = identityName t ↔ NamedLikeIdentity ts t d c := by
  unfold Table.relationName NamedLikeIdentity
  by_cases hmany : 1 < (t.linksInto ts d).length
  · have hnotOne : ¬ (t.linksInto ts d).length ≤ 1 := by omega
    rw [if_pos hmany]
    by_cases hempty : c.name = ""
    · have hnone : capitalizeFirst "" = "" := rfl
      simp [hempty, hnone]
    · rw [identityName_eq]
      split
      · next hid => simp [append_capitalizeFirst_eq_generatedId hempty, hmany, hnotOne, hempty, hid]
      · next hid => simp [append_capitalizeFirst_ne_id hempty, hnotOne, hempty, hid]
  · rw [if_neg hmany]
    simp [hmany, Nat.not_lt.1 hmany]

/-- Two columns into a table `generated`, of which one is the column `id` itself. -/
example :
    let d : Table String :=
      ⟨"g", "generated", "", [⟨"code", "int", none, true, false, false, false, Reference.unset⟩]⟩
    let t : Table String :=
      ⟨"p", "parts", "",
        [⟨"id", "int", none, true, false, false, true, ⟨"g", "code"⟩⟩,
         ⟨"whole", "int", none, true, false, false, true, ⟨"g", "code"⟩⟩]⟩
    identityName t = "generatedId" ∧
      t.columns.map (t.relationName [d, t] d) = ["generatedId", "generatedWhole"] := by
  decide +kernel

/-- The fields of an entity without a key: the identity, then one for each column. A column that stays a
field of its own is not called like the identity, unless it bears the name that is kept for the identity
beside a column `id`; of relation fields just those are whose targets are named for it. -/
theorem entity_identity (hn : t.columnNames.Nodup) (hk : t.primaryKey = none) :
    entityLines ts t =
      opening t ++ (fields ts t).flatMap Field.lines ++ noteLines "    // " t.notes ++ ["\x7d"] ∧
    (fields ts t).map (fun f => (f.type, f.name)) =
      ("Long", identityName t) :: t.columns.map (declaredAs ts t) ∧
    (∀ c ∈ t.columns, c.target? ts = none → ¬ ("id" ∈ t.columnNames ∧ c.name = "generatedId") →
      (declaredAs ts t c).2 ≠ identityName t) ∧
    ∀ c ∈ t.columns, ∀ d, c.target? ts = some d →
      ((declaredAs ts t c).2 = identityName t ↔ NamedLikeIdentity ts t d c) := by
  refine ⟨?_, ?_, fun c hc hd hfree => ?_, fun c _ d hd => ?_⟩
  · rw [entityLines_eq, linesBefore_eq hn]
  · rw [fields, identityFields, if_pos hk, List.singleton_append, List.map_cons, List.map_map]
    rfl
  · have hdeclared : (declaredAs ts t c).2 = c.name := by rw [declaredAs, hd]
    rw [hdeclared, identityName_eq]
    split
    · next hid => exact fun hname => hfree ⟨hid, hname⟩
    · next hid => exact fun hname => hid (hname ▸ List.mem_map_of_mem hc)
  · have hdeclared : (declaredAs ts t c).2 = t.relationName ts d c := by rw [declaredAs, hd]
    rw [hdeclared]
    exact relationName_eq_identityName

/-- The bills have no key but a column `id`, and two of their columns lead to the users. -/
def bills : Table String :=
  ⟨"b", "bills", "",
    [⟨"id", "text", none, true, false, false, false, Reference.unset⟩,
     ⟨"buyer", "int", none, true, false, false, true, ⟨"u", "id"⟩⟩,
     ⟨"payer", "int", none, true, false, false, true, ⟨"u", "id"⟩⟩]⟩

def billedUsers : List (Table String) :=
  [⟨"u", "users", "", [⟨"id", "int", none, false, true, true, false, Reference.unset⟩]⟩, bills]

theorem entity_identity_bills : bills.columnNames.Nodup ∧ bills.primaryKey = none ∧
    (fields billedUsers bills).map (fun f => (f.type, f.name)) =
      [("Long", "generatedId"), ("String", "id"), ("Users", "usersBuyer"), ("Users", "usersPayer")] ∧
    ∀ c ∈ bills.columns, (declaredAs billedUsers bills c).2 ≠ identityName bills := by
  have hn : bills.columnNames.Nodup := by decide +kernel
  have hk : bills.primaryKey = none := by decide +kernel
  obtain ⟨-, hfields, hown, hlink⟩ := @entity_identity billedUsers bills hn hk
  have hkept : ∀ c ∈ bills.columns, ¬ ("id" ∈ bills.columnNames ∧ c.name = "generatedId") := by
    decide +kernel
  have hfree : ∀ c ∈ bills.columns, ∀ d ∈ c.target? billedUsers,
      ¬ NamedLikeIdentity billedUsers bills d c := by decide +kernel
  refine ⟨hn, hk, ?_, fun c hc => ?_⟩
  · rw [hfields]
    decide +kernel
  · cases hd : c.target? billedUsers with
    | none => exact hown c hc hd (hkept c hc)
    | some d => exact fun heq => hfree c hc d hd ((hlink c hc d hd).1 heq)

/-- Bills without a key, whose owners are kept in a table called `id`. -/
def ownedBills : List (Table String) :=
  [⟨"i", "id", "", [⟨"code", "int", none, true, false, false, false, Reference.unset⟩]⟩,
   ⟨"b", "bills", "", [⟨"owner", "int", none, true, false, false, true, ⟨"i", "code"⟩⟩]⟩]

/-- The identity of a bill and the relation field for its owner are both called `id`. -/
theorem not_identity_apart_ownedBills : (∀ t ∈ ownedBills, t.columnNames.Nodup) ∧
    ¬ ∀ t ∈ ownedBills, t.primaryKey = none →
      ∀ c ∈ t.columns, (declaredAs ownedBills t c).2 ≠ identityName t := by
  decide +kernel

end Export.Jpa

end SchemaDesign
