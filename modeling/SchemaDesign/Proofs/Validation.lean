import SchemaDesign.Validation

/-! What the validation gate lets through: sound columns under names of their own. -/
namespace SchemaDesign.Validation

theorem nameProblems_eq_nil {seen : List String} {p : Nat} {name : String} :
    nameProblems seen p name = [] ↔
      name ≠ "" ∧ isValidName name = true ∧ name ∉ seen := by
  unfold nameProblems
  split
  · simp_all
  · split
    · simp_all
    · split
      · simp_all
      · simp_all

theorem isValidColumn_iff {c : Column String} :
    isValidColumn c = true ↔ c.name ≠ "" ∧ isValidName c.name = true ∧ c.type ≠ "" := by
  simp [isValidColumn, isValidLabel, and_assoc]

theorem columnProblems_eq_nil {seen : List String} {p : Nat} {c : Column String} :
    columnProblems seen p c = [] ↔ isValidColumn c = true ∧ c.name ∉ seen := by
  have ht : (if Label.isEmpty c.type then [Problem.typeMissing p] else []) = ([] : List (Problem String)) ↔
      c.type ≠ "" := by
    split <;> simp_all
  rw [columnProblems, List.append_eq_nil_iff, nameProblems_eq_nil, ht, isValidColumn_iff]
  constructor
  · rintro ⟨⟨hne, hv, hs⟩, hty⟩
    exact ⟨⟨hne, hv, hty⟩, hs⟩
  · rintro ⟨⟨hne, hv, hty⟩, hs⟩
    exact ⟨⟨hne, hv, hs⟩, hty⟩

theorem columnsProblems_eq_nil {seen : List String} {p : Nat} {cs : List (Column String)} :
    columnsProblems seen p cs = [] ↔
      (∀ c ∈ cs, isValidColumn c = true ∧ c.name ∉ seen) ∧ (cs.map (·.name)).Nodup := by
  induction cs generalizing seen p with
  | nil => simp [columnsProblems]
  | cons c cs ih =>
    rw [columnsProblems, List.append_eq_nil_iff, columnProblems_eq_nil, ih]
    simp only [List.mem_cons, not_or, List.map_cons, List.nodup_cons, List.mem_map, forall_eq_or_imp]
    constructor
    · rintro ⟨hc, hcs, hn⟩
      exact ⟨⟨hc, fun d hd => ⟨(hcs d hd).1, (hcs d hd).2.2⟩⟩,
        fun ⟨d, hd, he⟩ => (hcs d hd).2.1 he, hn⟩
    · rintro ⟨⟨hc, hcs⟩, hne, hn⟩
      exact ⟨hc, fun d hd => ⟨(hcs d hd).1, fun he => hne ⟨d, hd, he⟩, (hcs d hd).2⟩, hn⟩

/-- The name of a table counts as missing if trimming leaves nothing of it. -/
theorem missing_iff {name : String} :
    (Label.isEmpty name || (Text.trim (Label.shown name).toList).isEmpty) = true ↔
      Text.trim name.toList = [] := by
  rw [Bool.or_eq_true, List.isEmpty_iff, Label.shown_string, Label.isEmpty_string, beq_iff_eq,
    or_iff_right_iff_imp]
  rintro rfl
  rfl

/-- A draft passes exactly if its name is not blank and its columns are some, valid and of different
names. -/
theorem problems_eq_nil {name : String} {cs : List (Column String)} :
    problems name cs = [] ↔
      Text.trim name.toList ≠ [] ∧ cs ≠ [] ∧ (∀ c ∈ cs, isValidColumn c = true) ∧
        (cs.map (·.name)).Nodup := by
  have hunseen : (∀ c ∈ cs, isValidColumn c = true ∧ c.name ∉ ([] : List String)) ↔
      ∀ c ∈ cs, isValidColumn c = true := by
    simp only [List.not_mem_nil, not_false_eq_true, and_true]
  simp only [problems, List.append_eq_nil_iff, columnsProblems_eq_nil, hunseen, missing_iff,
    List.isEmpty_iff, ite_eq_right_iff, reduceCtorEq, imp_false, and_assoc, ne_eq]

/-- Under a name that is not blank, sound columns leave one thing to be wrong: that there are none. -/
theorem problems_of_columns {name : String} {cs : List (Column String)}
    (hname : Text.trim name.toList ≠ []) (hcolumns : columnsProblems [] 1 cs = []) :
    problems name cs = if cs.isEmpty then [.noColumns] else [] := by
  rw [problems, hcolumns, if_neg (mt missing_iff.1 hname), List.nil_append, List.append_nil]

theorem isNameChar_of_matchesName {c : Char} {s : List Char} (h : matchesName (c :: s) = true) :
    isNameChar c = true := by
  unfold matchesName at h
  split at h
  · cases h
  · next he => cases he; exact h
  · next he => cases he; exact h
  · next he => cases he; exact (Bool.and_eq_true_iff.1 h).1

theorem isNameChar_iff {c : Char} :
    isNameChar c = true ↔ c ≠ ';' ∧ Text.isDigit c = false ∧ Text.isBlank c = false := by
  simp [isNameChar, and_assoc]

/-- The language of names: name characters, and behind them one line break or none. -/
theorem matchesName_iff {s : List Char} :
    matchesName s = true ↔
      ∃ n, n ≠ [] ∧ (∀ c ∈ n, isNameChar c = true) ∧ (s = n ∨ s = n ++ ['\n']) := by
  -- no character, one, one with a line break, and all longer texts
  fun_induction matchesName s with
  | case1 =>
    refine ⟨nofun, ?_⟩
    rintro ⟨n, hn, -, hs | hs⟩
    · exact absurd hs.symm hn
    · simp at hs
  | case2 c =>
    refine ⟨fun h => ⟨[c], by simp, by simpa using h, .inl rfl⟩, ?_⟩
    rintro ⟨n, hn, hchars, hs | hs⟩
    · exact hchars c (hs ▸ List.mem_cons_self)
    · cases n with
      | nil => exact absurd rfl hn
      | cons d n => simp at hs
  | case3 c =>
    refine ⟨fun h => ⟨[c], by simp, by simpa using h, .inr rfl⟩, ?_⟩
    rintro ⟨n, hn, hchars, hs⟩
    cases n with
    | nil => exact absurd rfl hn
    | cons d n =>
      have hd : c = d := hs.elim (fun hs => (List.cons.inj hs).1) fun hs => (List.cons.inj hs).1
      exact hchars c (hd ▸ List.mem_cons_self)
  | case4 c rest hrest hbreak ih =>
    rw [Bool.and_eq_true_iff, ih]
    constructor
    · rintro ⟨hc, n, -, hchars, hs⟩
      refine ⟨c :: n, by simp, List.forall_mem_cons.2 ⟨hc, hchars⟩, ?_⟩
      exact hs.imp (congrArg (c :: ·)) (congrArg (c :: ·))
    · rintro ⟨n, hn, hchars, hs⟩
      cases n with
      | nil => exact absurd rfl hn
      | cons d n =>
        obtain ⟨rfl, htail⟩ : c = d ∧ (rest = n ∨ rest = n ++ ['\n']) := by
          simpa [← and_or_left] using hs
        obtain ⟨hc, hchars⟩ := List.forall_mem_cons.1 hchars
        refine ⟨hc, n, ?_, hchars, htail⟩
        rintro rfl
        exact htail.elim hrest hbreak

theorem matchesName_of_forall {s : List Char} (hne : s ≠ []) (h : ∀ c ∈ s, isNameChar c = true) :
    matchesName s = true :=
  matchesName_iff.2 ⟨s, hne, h, .inl rfl⟩

/-- The names that columns are to have: no digits, no white space and no semicolons anywhere. -/
def Grammatical (name : String) : Prop :=
  name ≠ "" ∧ ∀ c ∈ name.toList, c ≠ ';' ∧ Text.isDigit c = false ∧ Text.isBlank c = false

instance (name : String) : Decidable (Grammatical name) := inferInstanceAs (Decidable (_ ∧ _))

theorem grammatical_iff {name : String} :
    Grammatical name ↔ name ≠ "" ∧ ∀ c ∈ name.toList, isNameChar c = true := by
  simp only [Grammatical, isNameChar_iff]

/-- The names that the gate knows as valid: a line break at the end escapes it. -/
theorem isValidName_iff {name : String} :
    isValidName name = true ↔ Grammatical name ∨ ∃ n, Grammatical n ∧ name = n ++ "\n" := by
  rw [isValidName, matchesName_iff]
  constructor
  · rintro ⟨n, hne, hchars, hn⟩
    have hgrammatical : Grammatical (String.ofList n) := by
      rw [grammatical_iff, String.toList_ofList]
      exact ⟨by simpa using hne, hchars⟩
    rcases hn with hn | hn
    · refine .inl ?_
      rwa [← hn, String.ofList_toList] at hgrammatical
    · refine .inr ⟨String.ofList n, hgrammatical, String.toList_injective ?_⟩
      rw [hn, String.toList_append, String.toList_ofList]
      rfl
  · rintro (h | ⟨n, h, rfl⟩)
    · exact ⟨name.toList, by simpa using h.1, (grammatical_iff.1 h).2, .inl rfl⟩
    · exact ⟨n.toList, by simpa using h.1, (grammatical_iff.1 h).2, .inr String.toList_append⟩

theorem Grammatical.getLast?_ne {name : String} (h : Grammatical name) :
    name.toList.getLast? ≠ some '\n' := by
  intro hlast
  have hblank := (h.2 _ (List.mem_of_getLast? hlast)).2.2
  exact absurd hblank (by decide)

/-- A valid name is as it is to be unless it ends in a line break. -/
theorem grammatical_of_getLast?_ne {name : String} (hvalid : isValidName name = true)
    (hlast : name.toList.getLast? ≠ some '\n') : Grammatical name := by
  refine (isValidName_iff.1 hvalid).resolve_right ?_
  rintro ⟨n, -, rfl⟩
  exact hlast (by rw [String.toList_append]; exact List.getLast?_concat)

theorem ne_empty_of_isValidName {name : String} (h : isValidName name = true) : name ≠ "" := by
  rintro rfl
  exact absurd h (by decide)

end SchemaDesign.Validation
