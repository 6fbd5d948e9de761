/-! Taking apart computations that may fail. -/
namespace SchemaDesign

variable {ε ε' α β : Type}

theorem bind_eq_ok {x : Except ε α} {f : α → Except ε β} {b : β} :
    (x >>= f) = .ok b ↔ ∃ a, x = .ok a ∧ f a = .ok b := by
  cases x with
  | error e => simp [bind, Except.bind]
  | ok a => simp [bind, Except.bind]

theorem bind_eq_error {x : Except ε α} {f : α → Except ε β} {e : ε} :
    (x >>= f) = .error e ↔ x = .error e ∨ ∃ a, x = .ok a ∧ f a = .error e := by
  cases x with
  | error e => simp [bind, Except.bind]
  | ok a => simp [bind, Except.bind]

theorem mapError_eq_ok {x : Except ε α} {f : ε → ε'} {a : α} :
    x.mapError f = .ok a ↔ x = .ok a := by
  cases x with
  | error e => constructor <;> intro h <;> cases h
  | ok b => constructor <;> intro h <;> cases h <;> rfl

theorem mapError_eq_error {x : Except ε α} {f : ε → ε'} {e' : ε'} :
    x.mapError f = .error e' ↔ ∃ e, x = .error e ∧ f e = e' := by
  cases x with
  | error e =>
    constructor
    · intro h
      cases h
      exact ⟨e, rfl, rfl⟩
    · rintro ⟨_, h, rfl⟩
      cases h
      rfl
  | ok a =>
    constructor
    · intro h
      cases h
    · rintro ⟨_, h, -⟩
      cases h

theorem map_eq_ok {x : Except ε α} {f : α → β} {b : β} :
    x.map f = .ok b ↔ ∃ a, x = .ok a ∧ f a = b := by
  cases x <;> simp [Except.map]

theorem map_mapError (x : Except ε α) (f : α → β) (g : ε → ε') :
    (x.mapError g).map f = (x.map f).mapError g := by
  cases x <;> rfl

/-- Computations that agree under a map fail alike, or have results that agree. -/
theorem map_eq_map {x y : Except ε α} {f : α → β} (h : x.map f = y.map f) :
    (∃ e, x = .error e ∧ y = .error e) ∨ ∃ a b, x = .ok a ∧ y = .ok b ∧ f a = f b := by
  cases x with
  | error e =>
    cases y with
    | error e' =>
      cases h
      exact .inl ⟨e, rfl, rfl⟩
    | ok b => cases h
  | ok a =>
    cases y with
    | error e => cases h
    | ok b => exact .inr ⟨a, b, rfl, rfl, Except.ok.inj h⟩

theorem bind_map_congr {γ δ : Type} {x y : Except ε α} {f : α → γ} {g g' : α → Except ε β} {k : β → δ}
    (hxy : x.map f = y.map f) (h : ∀ a b, f a = f b → (g a).map k = (g' b).map k) :
    (x >>= g).map k = (y >>= g').map k := by
  rcases map_eq_map hxy with ⟨e, rfl, rfl⟩ | ⟨a, b, rfl, rfl, hab⟩
  · rfl
  · exact h a b hab

/-- Two steps that agree up to a map do so in a row. -/
theorem map_bind_congr {α' β' : Type} {x : Option α} {f : α → α'} {g : α' → Option β'}
    {h : α → Option β} {k : β → β'} (heq : ∀ a, g (f a) = (h a).map k) :
    (x.map f).bind g = (x.bind h).map k := by
  cases x with
  | none => rfl
  | some a => exact heq a

theorem map_bind_eq {α' : Type} {x : Option α} {f : α → α'} {g : α' → Option β} {h : α → Option β}
    (heq : ∀ a, g (f a) = h a) : (x.map f).bind g = x.bind h := by
  cases x with
  | none => rfl
  | some a => exact heq a

/-- What each step of a fold that succeeds keeps, the whole fold keeps. -/
theorem foldlM_keeps {P : β → Prop} {f : β → α → Except ε β} {as : List α} {b b' : β}
    (step : ∀ a ∈ as, ∀ b b', P b → f b a = .ok b' → P b')
    (hb : P b) (h : as.foldlM f b = .ok b') : P b' := by
  induction as generalizing b with
  | nil => cases h; exact hb
  | cons a as ih =>
    rw [List.foldlM_cons] at h
    obtain ⟨c, hc, h⟩ := bind_eq_ok.1 h
    exact ih (fun d hd => step d (List.mem_cons_of_mem _ hd)) (step a List.mem_cons_self b c hb hc) h

/-- What each step of a pass that succeeds gives, all its results have. -/
theorem mapM_keeps {P : β → Prop} {f : α → Except ε β} {as : List α} {bs : List β}
    (step : ∀ a b, f a = .ok b → P b) (h : as.mapM f = .ok bs) : ∀ b ∈ bs, P b := by
  induction as generalizing bs with
  | nil =>
    cases h
    exact fun b hb => absurd hb List.not_mem_nil
  | cons a as ih =>
    rw [List.mapM_cons] at h
    obtain ⟨b, hb, h⟩ := bind_eq_ok.1 h
    obtain ⟨bs, hbs, h⟩ := bind_eq_ok.1 h
    cases h
    exact List.forall_mem_cons.2 ⟨step a b hb, ih hbs⟩

/-- A pass over what was written from a list gives what each step does. -/
theorem mapM_map_ok {γ : Type} {f : β → Except ε γ} {g : α → β} {k : α → γ}
    (step : ∀ a, f (g a) = .ok (k a)) (as : List α) : (as.map g).mapM f = .ok (as.map k) := by
  induction as with
  | nil => rfl
  | cons a as ih =>
    rw [List.map_cons, List.mapM_cons, step a, ih]
    rfl

end SchemaDesign
