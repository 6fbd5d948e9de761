import Mathlib.Data.List.Forall2
import Mathlib.Data.List.Nodup

/-! Lists that correspond item by item, a list that a predicate splits in two, and a list in which each key
stands once. -/
namespace SchemaDesign

variable {α β γ : Type}

theorem forall₂_eq_iff_map {f : α → γ} {g : β → γ} {as : List α} {bs : List β} :
    List.Forall₂ (fun a b => f a = g b) as bs ↔ as.map f = bs.map g := by
  rw [← List.forall₂_eq_eq_eq, List.forall₂_map_left_iff, List.forall₂_map_right_iff]

theorem forall₂_with_mem {R : α → β → Prop} {as : List α} {bs : List β} (h : List.Forall₂ R as bs) :
    List.Forall₂ (fun a b => a ∈ as ∧ R a b) as bs :=
  (List.forall₂_and_left as bs).2 ⟨fun _ ha => ha, h⟩

theorem forall₂_with_both_mem {R : α → β → Prop} {as : List α} {bs : List β}
    (h : List.Forall₂ R as bs) : List.Forall₂ (fun a b => a ∈ as ∧ b ∈ bs ∧ R a b) as bs := by
  obtain ⟨hlength, hzip⟩ := List.forall₂_iff_zip.1 h
  apply List.forall₂_iff_zip.2
  refine ⟨hlength, fun hmem => ?_⟩
  obtain ⟨ha, hb⟩ := List.of_mem_zip hmem
  exact ⟨ha, hb, hzip hmem⟩

/-- Two lists that correspond to a third. -/
theorem forall₂_join {R : α → β → Prop} {S : α → γ → Prop} {as : List α} {bs : List β} {cs : List γ}
    (h : List.Forall₂ R as bs) (h' : List.Forall₂ S as cs) :
    List.Forall₂ (fun b c => ∃ a, R a b ∧ S a c) bs cs := by
  induction h generalizing cs with
  | nil =>
    cases h'
    exact .nil
  | cons hr _ ih =>
    cases h' with
    | cons hs h' => exact .cons ⟨_, hr, hs⟩ (ih h')

theorem filter_append_split {p : α → Bool} {as bs : List α} (ha : ∀ a ∈ as, p a = false)
    (hb : ∀ b ∈ bs, p b = true) :
    (as ++ bs).filter (fun a => !p a) = as ∧ (as ++ bs).filter p = bs := by
  have has : as.filter (fun a => !p a) = as := List.filter_eq_self.2 fun a h => by simp [ha a h]
  have hbs : bs.filter (fun b => !p b) = [] := List.filter_eq_nil_iff.2 fun b h => by simp [hb b h]
  have has' : as.filter p = [] := List.filter_eq_nil_iff.2 fun a h => by simp [ha a h]
  rw [List.filter_append, List.filter_append, has, hbs, has', List.filter_eq_self.2 hb]
  exact ⟨List.append_nil as, rfl⟩

theorem filterMap_filter_of_none {f : α → Option β} {keep : α → Bool}
    (h : ∀ a, keep a = false → f a = none) (as : List α) :
    (as.filter keep).filterMap f = as.filterMap f := by
  rw [List.filterMap_filter]
  apply List.filterMap_congr
  intro a _
  by_cases hkeep : keep a = true
  · rw [if_pos hkeep]
  · rw [if_neg hkeep, h a (by simpa using hkeep)]

/-- What corresponds to an item stands where that item stands. -/
theorem exists_of_forall₂_append_cons {R : α → β → Prop} {l : List α} {a : α} {r : List α} {bs : List β}
    (h : List.Forall₂ R (l ++ a :: r) bs) : ∃ b, bs[l.length]? = some b ∧ R a b := by
  induction l generalizing bs with
  | nil =>
    obtain ⟨b, bs, hab, -, rfl⟩ := List.forall₂_cons_left_iff.1 h
    exact ⟨b, rfl, hab⟩
  | cons c l ih =>
    obtain ⟨b, bs, -, hbs, rfl⟩ := List.forall₂_cons_left_iff.1 h
    obtain ⟨d, hd, had⟩ := ih hbs
    exact ⟨d, by simpa using hd, had⟩

/-- The first element of which something holds. -/
theorem exists_first {p : α → Prop} {as : List α} (h : ∃ a ∈ as, p a) :
    ∃ l a r, as = l ++ a :: r ∧ p a ∧ ∀ b ∈ l, ¬ p b := by
  induction as with
  | nil => simp at h
  | cons b as ih =>
    by_cases hb : p b
    · exact ⟨[], b, as, rfl, hb, by simp⟩
    · obtain ⟨l, a, r, rfl, ha, hl⟩ := ih (by simpa [hb] using h)
      exact ⟨b :: l, a, r, rfl, ha, List.forall_mem_cons.2 ⟨hb, hl⟩⟩

section Split

variable [BEq α] [LawfulBEq α] {a : α} {as bs part : List α}

/-- The parts between the places of a mark do not hold the mark. -/
theorem notMem_of_mem_splitOn (h : part ∈ as.splitOn a) : a ∉ part := by
  rw [List.splitOn_eq_splitOnP] at h
  induction as generalizing part with
  | nil =>
    rw [List.splitOnP_nil, List.mem_singleton] at h
    rw [h]
    exact List.not_mem_nil
  | cons b as ih =>
    rw [List.splitOnP_cons_eq_if_modifyHead] at h
    split at h
    · rcases List.mem_cons.1 h with rfl | h
      · exact List.not_mem_nil
      · exact ih h
    · next hb =>
      obtain ⟨q, qs, hs⟩ := List.exists_cons_of_ne_nil (List.splitOnP_ne_nil (· == a) as)
      rw [hs] at h ih
      rw [List.modifyHead_cons] at h
      rcases List.mem_cons.1 h with rfl | h
      · have hne : b ≠ a := by simpa using hb
        rw [List.mem_cons, not_or]
        exact ⟨hne.symm, ih List.mem_cons_self⟩
      · exact ih (List.mem_cons_of_mem _ h)

/-- What does not hold the mark is put before the first part. -/
theorem splitOn_append_of_notMem (h : a ∉ as) (bs : List α) :
    (as ++ bs).splitOn a = (bs.splitOn a).modifyHead (as ++ ·) := by
  induction as with
  | nil => cases hs : bs.splitOn a <;> simp [hs]
  | cons b as ih =>
    rw [List.mem_cons, not_or] at h
    have hb : (b == a) = false := by simpa using Ne.symm h.1
    rw [List.cons_append, List.splitOn_eq_splitOnP, List.splitOnP_cons_eq_if_modifyHead, hb,
      ← List.splitOn_eq_splitOnP, ih h.2]
    cases bs.splitOn a <;> rfl

end Split

/-- Pieces that are put into the blocks of a list do not show exactly if all of them are empty. -/
theorem flatMap_insert_iff {f g h : α → List β} {as : List α} :
    as.flatMap (fun a => f a ++ g a ++ h a) = as.flatMap (fun a => f a ++ h a) ↔
      ∀ a ∈ as, g a = [] := by
  have hlength : (as.flatMap fun a => f a ++ g a ++ h a).length =
      (as.flatMap fun a => f a ++ h a).length + (as.flatMap g).length := by
    induction as with
    | nil => rfl
    | cons a as ih =>
      simp only [List.flatMap_cons, List.length_append, ih]
      omega
  constructor
  · intro heq
    rw [heq] at hlength
    exact List.flatMap_eq_nil_iff.1 (List.length_eq_zero_iff.1 (by omega))
  · intro hnil
    rw [List.flatMap_def, List.flatMap_def]
    refine congrArg List.flatten (List.map_congr_left fun a ha => ?_)
    rw [hnil a ha, List.append_nil]

section Keyed

variable {κ : Type} [BEq κ] [LawfulBEq κ] {key : α → κ} {as bs : List α}

/-- Where no key is repeated, the first of a key is the only one. -/
theorem find?_key_eq_some (hn : (as.map key).Nodup) {k : κ} {a : α} :
    as.find? (key · == k) = some a ↔ a ∈ as ∧ key a = k := by
  constructor
  · exact fun h => ⟨List.mem_of_find?_eq_some h, by simpa using List.find?_some h⟩
  · rintro ⟨ha, rfl⟩
    have hsome : (as.find? (key · == key a)).isSome = true :=
      List.find?_isSome.2 ⟨a, ha, beq_self_eq_true (key a)⟩
    obtain ⟨b, hb⟩ := Option.isSome_iff_exists.1 hsome
    have hkey : key b = key a := by simpa using List.find?_some hb
    rw [hb, List.inj_on_of_nodup_map hn (List.mem_of_find?_eq_some hb) ha hkey]

theorem find?_key_perm (hn : (as.map key).Nodup) (h : bs.Perm as) (k : κ) :
    bs.find? (key · == k) = as.find? (key · == k) := by
  have hn' : (bs.map key).Nodup := (h.map key).nodup_iff.2 hn
  apply Option.ext
  intro a
  rw [find?_key_eq_some hn', find?_key_eq_some hn, h.mem_iff]

end Keyed

section insertLast

variable [BEq α] [LawfulBEq α] {p : α → Bool} {a : α} {as bs : List α}

/-- An element put behind the others, unless it is there. -/
def insertLast (a : α) (as : List α) : List α := if a ∈ as then as else as ++ [a]

theorem filter_insertLast (h : p a = false) : (insertLast a as).filter p = as.filter p := by
  unfold insertLast
  split
  · rfl
  · simp [h]

theorem filter_insertLast_congr (h : as.filter p = bs.filter p) (a : α) :
    (insertLast a as).filter p = (insertLast a bs).filter p := by
  cases ha : p a with
  | false => rw [filter_insertLast ha, filter_insertLast ha, h]
  | true =>
    have hmem : a ∈ as ↔ a ∈ bs := by simpa [ha] using congrArg (a ∈ ·) h
    unfold insertLast
    simp only [hmem]
    split
    · exact h
    · rw [List.filter_append, List.filter_append, h]

theorem eraseDups_append_singleton (as : List α) (a : α) :
    (as ++ [a]).eraseDups = insertLast a as.eraseDups := by
  rw [List.eraseDups_append, insertLast]
  by_cases h : a ∈ as <;> simp [List.removeAll, List.eraseDups_cons, h]

end insertLast

end SchemaDesign
