import SchemaDesign.Assoc
import SchemaDesign.Proofs.Lists

/-! What an association list holds once a key is put. -/
namespace SchemaDesign.Assoc

variable {κ α : Type} [BEq κ] [LawfulBEq κ] {k : κ} {v : α} {l : List (κ × α)}

theorem get?_put_self (k : κ) (v : α) (l : List (κ × α)) : get? k (put k v l) = some v := by
  induction l with
  | nil => simp [put, get?]
  | cons e l ih =>
    obtain ⟨j, w⟩ := e
    unfold put
    split
    · next h => simp [get?, h]
    · next h =>
      have h : (j == k) = false := by simpa using h
      simpa [get?, h] using ih

theorem get?_put_of_ne {j : κ} (h : j ≠ k) (v : α) (l : List (κ × α)) :
    get? j (put k v l) = get? j l := by
  have hkj : (k == j) = false := by simpa using h.symm
  induction l with
  | nil => simp [put, get?, hkj]
  | cons e l ih =>
    obtain ⟨i, w⟩ := e
    unfold put
    split
    · next he =>
      have he : i = k := by simpa using he
      subst he
      simp [get?, hkj]
    · cases hij : (i == j) with
      | true => simp [get?, hij]
      | false => simpa [get?, hij] using ih

omit [LawfulBEq κ] in
theorem put_map {β : Type} (f : α → β) :
    put k (f v) (l.map (Prod.map id f)) = (put k v l).map (Prod.map id f) := by
  induction l with
  | nil => rfl
  | cons e l ih =>
    obtain ⟨j, w⟩ := e
    simp only [List.map_cons, Prod.map, id_eq, put]
    split
    · rfl
    · simpa using ih

/-- A new key comes last. -/
theorem put_of_notMem (h : k ∉ l.map (·.1)) (v : α) : put k v l = l ++ [(k, v)] := by
  induction l with
  | nil => rfl
  | cons e l ih =>
    rw [List.map_cons, List.mem_cons, not_or] at h
    have hne : (e.1 == k) = false := by simpa using Ne.symm h.1
    rw [put, hne, ih h.2]
    rfl

theorem mem_put {e : κ × α} (h : e ∈ put k v l) : e = (k, v) ∨ e ∈ l := by
  induction l with
  | nil => simpa [put] using h
  | cons d l ih =>
    obtain ⟨j, w⟩ := d
    unfold put at h
    split at h
    · next hj =>
      have hj : j = k := by simpa using hj
      subst hj
      rcases List.mem_cons.1 h with h | h
      · exact .inl h
      · exact .inr (List.mem_cons_of_mem _ h)
    · rcases List.mem_cons.1 h with h | h
      · exact .inr (h ▸ List.mem_cons_self)
      · exact (ih h).imp_right (List.mem_cons_of_mem _)

theorem mem_putNew {e : κ × α} (h : e ∈ putNew k v l) : e = (k, v) ∨ e ∈ l := by
  unfold putNew at h
  split at h
  · exact .inr h
  · exact mem_put h

theorem mem_of_get? (h : get? k l = some v) : (k, v) ∈ l := by
  obtain ⟨⟨j, w⟩, he, rfl⟩ := Option.map_eq_some_iff.1 h
  have hj : j = k := by simpa using List.find?_some he
  subst hj
  exact List.mem_of_find?_eq_some he

theorem get?_putNew_of_some {j : κ} {w : α} (h : get? j l = some w) :
    get? j (putNew k v l) = some w := by
  unfold putNew
  split
  · exact h
  · next hk =>
    rw [get?_put_of_ne _, h]
    rintro rfl
    exact hk (List.any_eq_true.2 ⟨(j, w), mem_of_get? h, beq_self_eq_true j⟩)

theorem get?_putNew_of_none (h : get? k l = none) (v : α) : get? k (putNew k v l) = some v := by
  have hfree : l.any (·.1 == k) = false := by simpa [get?] using h
  rw [putNew, hfree]
  exact get?_put_self k v l

theorem get?_putNew_of_ne {j : κ} (h : j ≠ k) (v : α) (l : List (κ × α)) :
    get? j (putNew k v l) = get? j l := by
  unfold putNew
  split
  · rfl
  · exact get?_put_of_ne h v l

theorem get?_eq_none : get? k l = none ↔ k ∉ l.map (·.1) := by
  unfold get?
  rw [Option.map_eq_none_iff, List.find?_eq_none, List.mem_map, not_exists]
  exact forall_congr' fun e => by simp only [beq_iff_eq, not_and]

omit [LawfulBEq κ] in
theorem get?_append (k : κ) (l l' : List (κ × α)) :
    get? k (l ++ l') = (get? k l).or (get? k l') := by
  unfold get?
  rw [List.find?_append]
  cases l.find? (·.1 == k) <;> rfl

theorem key_mem_put (l : List (κ × α)) : k ∈ (put k v l).map (·.1) := by
  have hget := get?_put_self k v l
  exact List.mem_map.2 ⟨(k, v), mem_of_get? hget, rfl⟩

omit [LawfulBEq κ] in
/-- No key is lost. -/
theorem keys_subset_put : l.map (·.1) ⊆ (put k v l).map (·.1) := by
  induction l with
  | nil => exact List.nil_subset _
  | cons e l ih =>
    obtain ⟨j, w⟩ := e
    unfold put
    split
    · exact fun _ h => h
    · exact List.cons_subset_cons j ih

omit [LawfulBEq κ] in
theorem keys_subset_putNew : l.map (·.1) ⊆ (putNew k v l).map (·.1) := by
  unfold putNew
  split
  · exact fun _ h => h
  · exact keys_subset_put

theorem keys_put (k : κ) (v : α) (l : List (κ × α)) :
    (put k v l).map (·.1) = insertLast k (l.map (·.1)) := by
  unfold insertLast
  induction l with
  | nil => rfl
  | cons e l ih =>
    obtain ⟨j, w⟩ := e
    unfold put
    split
    · next h => simp [beq_iff_eq.1 h]
    · next h =>
      have h : k ≠ j := fun he => h (beq_iff_eq.2 he.symm)
      rw [List.map_cons, List.map_cons, ih]
      split <;> simp_all

theorem keys_putNew (k : κ) (v : α) (l : List (κ × α)) :
    (putNew k v l).map (·.1) = insertLast k (l.map (·.1)) := by
  unfold putNew
  split
  · next h => simpa [insertLast] using h
  · exact keys_put k v l

end SchemaDesign.Assoc
