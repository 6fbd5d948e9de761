import SchemaDesign.Proofs.Model.PrimaryKey

/-! Which column is the key once the key of a list of columns is normalised, and what becomes of every
column. A second time nothing changes any more, for the chosen column is then the first that is flagged. -/
namespace SchemaDesign.PrimaryKey

variable {cs ds : List (Column String)} {p : Option String} {c d : Column String}

/-- The column that is to be the key: the preferred one or, where no column has the preferred name, the
first that is flagged. -/
inductive Heir (p : Option String) (cs : List (Column String)) (c : Column String) : Prop
  | preferred (mem : c ∈ cs) (named : p = some c.name)
  | first {before after : List (Column String)} (split : cs = before ++ c :: after)
      (unnamed : ∀ d ∈ cs, p ≠ some d.name) (flagged : c.primaryKey = true)
      (unflagged : ∀ d ∈ before, d.primaryKey = false)

/-- What a column becomes: the heir is flagged, not null and unique, any other column is not flagged, and
all the rest stays. -/
structure Settled (p : Option String) (cs : List (Column String)) (c d : Column String) : Prop where
  name : d.name = c.name
  type : d.type = c.type
  typeLength : d.typeLength = c.typeLength
  foreignKey : d.foreignKey = c.foreignKey
  references : d.references = c.references
  heir : Heir p cs c → d.primaryKey = true ∧ d.nullable = false ∧ d.unique = true
  other : ¬ Heir p cs c → d = { c with primaryKey := false }

/-- Where names are distinct the chosen one is the heir's. -/
theorem choose_eq_some_iff (hn : (cs.map (·.name)).Nodup) (hc : c ∈ cs) :
    choose p cs = some c.name ↔ Heir p cs c := by
  by_cases hp : ∃ d ∈ cs, p = some d.name
  · rw [choose_of_named hp]
    refine ⟨.preferred hc, fun h => ?_⟩
    cases h with
    | preferred _ named => exact named
    | first _ unnamed _ _ =>
      obtain ⟨d, hd, hname⟩ := hp
      exact absurd hname (unnamed d hd)
  · have hunnamed : ∀ d ∈ cs, p ≠ some d.name := by simpa using hp
    have hfind : choose p cs = some c.name ↔ cs.find? (·.primaryKey) = some c := by
      rw [choose_of_unnamed hunnamed, Option.map_eq_some_iff]
      constructor
      · rintro ⟨d, hd, hname⟩
        rwa [← List.inj_on_of_nodup_map hn (List.mem_of_find?_eq_some hd) hc hname]
      · exact fun h => ⟨c, h, rfl⟩
    rw [hfind, List.find?_eq_some_iff_append]
    constructor
    · rintro ⟨hflag, before, after, hsplit, hbefore⟩
      exact .first hsplit hunnamed hflag fun d hd => by simpa using hbefore d hd
    · intro h
      cases h with
      | preferred _ named => exact absurd named (hunnamed c hc)
      | first split _ flagged unflagged =>
        exact ⟨flagged, _, _, split, fun d hd => by simp [unflagged d hd]⟩

/-! What becomes of a column -/

theorem mark_mark (k : Option String) (c : Column String) : mark k (mark k c) = mark k c := by
  by_cases h : k = some c.name
  · have hagain : k = some (mark k c).name := by rwa [mark_name]
    rw [mark_of_chosen hagain, mark_of_chosen h]
  · have hagain : k ≠ some (mark k c).name := by rwa [mark_name]
    rw [mark_of_other hagain, mark_of_other h]

theorem settled_iff (hchoose : choose p cs = some c.name ↔ Heir p cs c) :
    Settled p cs c d ↔ d = mark (choose p cs) c := by
  by_cases hk : choose p cs = some c.name
  · have hheir := hchoose.1 hk
    rw [mark_of_chosen hk]
    constructor
    · rintro ⟨hname, htype, hlength, hforeign, hrefs, hset, -⟩
      obtain ⟨hprimary, hnull, huniq⟩ := hset hheir
      cases d
      simp_all
    · rintro rfl
      exact ⟨rfl, rfl, rfl, rfl, rfl, fun _ => ⟨rfl, rfl, rfl⟩, fun h => absurd hheir h⟩
  · have hother : ¬ Heir p cs c := fun h => hk (hchoose.2 h)
    rw [mark_of_other hk]
    constructor
    · exact fun h => h.other hother
    · rintro rfl
      exact ⟨rfl, rfl, rfl, rfl, rfl, fun h => absurd h hother, fun _ => rfl⟩

/-- Every column becomes what the law says of it, and the law leaves no choice. -/
theorem normalise_eq_iff (hn : (cs.map (·.name)).Nodup) :
    normalise p cs = ds ↔ List.Forall₂ (Settled p cs) cs ds := by
  -- The chosen name is the heir's for a column of the list alone, so membership is carried along.
  have hchoose : ∀ c ∈ cs, (choose p cs = some c.name ↔ Heir p cs c) := fun c hc =>
    choose_eq_some_iff hn hc
  have hsettled : List.Forall₂ (Settled p cs) cs ds ↔
      List.Forall₂ (fun c d => mark (choose p cs) c = d) cs ds := by
    constructor <;> intro h
    · exact ((List.forall₂_and_left _ _).2 ⟨hchoose, h⟩).imp fun c d hcd =>
        ((settled_iff hcd.1).1 hcd.2).symm
    · exact ((List.forall₂_and_left _ _).2 ⟨hchoose, h⟩).imp fun c d hcd =>
        (settled_iff hcd.1).2 hcd.2.symm
  rw [hsettled, ← List.forall₂_map_left_iff (R := Eq), List.forall₂_eq_eq_eq]
  rfl

/-! A second time -/

theorem choose_none_normalise : choose none (normalise p cs) = choose p cs :=
  Table.primaryKey_normalise ⟨"", "", "", cs⟩

theorem choose_normalise : choose p (normalise p cs) = choose p cs := by
  have hnames : (∃ c ∈ normalise p cs, p = some c.name) ↔ ∃ c ∈ cs, p = some c.name := by
    simp [normalise_eq_map]
  by_cases hp : ∃ c ∈ cs, p = some c.name
  · rw [choose_of_named hp, choose_of_named (hnames.2 hp)]
  · have hunnamed : ∀ c ∈ normalise p cs, p ≠ some c.name := by
      simpa using fun h => hp (hnames.1 h)
    rw [choose_of_unnamed hunnamed, ← choose_none_normalise, choose_of_unnamed (p := none) nofun]

theorem normalise_of_choose_eq {q : Option String}
    (h : choose q (normalise p cs) = choose p cs) : normalise q (normalise p cs) = normalise p cs := by
  rw [normalise_eq_map, h, normalise_eq_map, List.map_map]
  exact List.map_congr_left fun c _ => mark_mark _ c

/-- Of columns with distinct names the heir becomes the key and no other column is flagged; the columns
stay in place, and to normalise them again, with the preferred name or without one, changes nothing. -/
theorem normalise_settles (hn : (cs.map (·.name)).Nodup) (p : Option String) :
    (∀ ds, normalise p cs = ds ↔ List.Forall₂ (Settled p cs) cs ds) ∧
      (normalise p cs).countP (·.primaryKey) =
        (if ∃ c ∈ cs, p = some c.name ∨ c.primaryKey = true then 1 else 0) ∧
      normalise p (normalise p cs) = normalise p cs ∧
      normalise none (normalise p cs) = normalise p cs := by
  refine ⟨fun ds => normalise_eq_iff hn, ?_, normalise_of_choose_eq choose_normalise,
    normalise_of_choose_eq choose_none_normalise⟩
  have hkeyless : choose p cs = none ↔ ¬ ∃ c ∈ cs, p = some c.name ∨ c.primaryKey = true := by
    simp [choose_eq_none_iff]
  rw [countP_normalise hn]
  split
  · next hnone => rw [if_neg (hkeyless.1 hnone)]
  · next hsome => rw [if_pos (not_not.1 fun h => hsome (hkeyless.2 h))]

/-- Three columns, the last two of them flagged; the first is a nullable foreign key. -/
def rivals : List (Column String) :=
  [⟨"owner", "int", none, true, false, false, true, ⟨"u", "id"⟩⟩,
   ⟨"code", "varchar", some 8, true, false, true, false, Reference.unset⟩,
   ⟨"id", "int", none, false, true, true, false, Reference.unset⟩]

/-- No column is called `email`, so the first of the two that are flagged is the key. Once `owner` has been
given the key, it keeps it without being preferred. -/
theorem normalise_settles_rivals :
    (rivals.map (·.name)).Nodup ∧
      List.Forall₂ (Settled (some "email") rivals) rivals
        [⟨"owner", "int", none, true, false, false, true, ⟨"u", "id"⟩⟩,
         ⟨"code", "varchar", some 8, false, true, true, false, Reference.unset⟩,
         ⟨"id", "int", none, false, true, false, false, Reference.unset⟩] ∧
      (normalise (some "email") rivals).countP (·.primaryKey) = 1 ∧
      normalise none (normalise (some "owner") rivals) = normalise (some "owner") rivals := by
  have hn : (rivals.map (·.name)).Nodup := by decide
  obtain ⟨hsettled, hcount, -, -⟩ := normalise_settles hn (some "email")
  obtain ⟨-, -, -, hagain⟩ := normalise_settles hn (some "owner")
  exact ⟨hn, (hsettled _).1 (by decide), by rw [hcount]; decide, hagain⟩

end SchemaDesign.PrimaryKey
