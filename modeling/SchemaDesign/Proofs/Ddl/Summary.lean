import SchemaDesign.Proofs.Ddl.Account
import SchemaDesign.Proofs.Ddl.Legible

/-! What the pieces of a body come to, told from their texts: which of them are refused, what columns they
give, which of these is the key, and where each foreign key leads. -/
namespace SchemaDesign.Ddl

/-! What the pieces say -/

def Piece.key? : Piece → Option String
  | .primaryKey name => some name
  | _ => none

def Piece.foreignKey? : Piece → Option (String × Target)
  | .foreignKey name target => some (name, target)
  | _ => none

/-- The columns that primary key clauses name, in order. -/
def keyClauses (ps : List (List Char)) : List String := ps.filterMap fun p => (Piece.ofText p).key?

/-- The columns of foreign key clauses with their targets, in order. -/
def foreignClauses (ps : List (List Char)) : List (String × Target) :=
  ps.filterMap fun p => (Piece.ofText p).foreignKey?

/-- The names under which pieces define columns. -/
def definedNames (ps : List (List Char)) : List String := (definitions ps).map (String.ofList ·.name)

/-- The definitions that are the first of their names. -/
def firsts (ds : List Definition) : List Definition :=
  ds.foldl (fun found d => if found.any (·.name == d.name) then found else found ++ [d]) []

/-- The first column that is called the primary key where it is defined. -/
def inlineKey? (ps : List (List Char)) : Option String :=
  ((firsts (definitions ps)).find? (·.primaryKey)).map (String.ofList ·.name)

/-- The column that the last primary key clause names, if there is one of that name. -/
def clauseKey? (ps : List (List Char)) : Option String :=
  (keyClauses ps).getLast?.filter (· ∈ definedNames ps)

def keyName? (ps : List (List Char)) : Option String := (clauseKey? ps).or (inlineKey? ps)

/-- The target that the last clause for a foreign key gives. -/
def lastTarget? (name : String) (ps : List (List Char)) : Option Target :=
  ((foreignClauses ps).filter (·.1 == name)).getLast?.map (·.2)

/-- Why a piece is refused behind others that define columns under some names. -/
def refusal? (names : List String) (p : List Char) : Option Reason :=
  match Piece.ofText p with
  | .primaryKey _ => none
  | .foreignKey _ _ => none
  | .unsupported => some .unsupportedClause
  | .unrecognised => some .unrecognised
  | .column d _ =>
      if Validation.isValidName (String.ofList d.name) = false then
        some (.invalidName (String.ofList d.name))
      else if String.ofList d.name ∈ names then some (.duplicateColumn (String.ofList d.name))
      else none

/-- The fragments of the pieces that are refused behind others, in order. -/
def refusals (before : List (List Char)) : List (List Char) → List Fragment
  | [] => []
  | p :: ps =>
      ((refusal? (definedNames before) p).map (⟨String.ofList p, ·⟩)).toList ++
        refusals (before ++ [p]) ps

/-- The columns that only foreign key clauses name, each once. -/
def missingNames (ps : List (List Char)) : List String :=
  ((foreignClauses ps).map (·.1)).eraseDups.filter (· ∉ definedNames ps)

def missingFragment (table name : String) : Fragment :=
  ⟨"FOREIGN KEY (" ++ name ++ ")", .missingColumn name table⟩

/-- All that is reported of a body. -/
def bodyFragments (table : String) (ps : List (List Char)) : List Fragment :=
  refusals [] ps ++ (missingNames ps).map (missingFragment table)

variable {ps : List (List Char)} {p : List Char}

@[simp] theorem keyClauses_append_singleton (ps : List (List Char)) (p : List Char) :
    keyClauses (ps ++ [p]) = keyClauses ps ++ (Piece.ofText p).key?.toList := by
  cases h : (Piece.ofText p).key? <;> simp [keyClauses, h]

@[simp] theorem foreignClauses_append_singleton (ps : List (List Char)) (p : List Char) :
    foreignClauses (ps ++ [p]) = foreignClauses ps ++ (Piece.ofText p).foreignKey?.toList := by
  cases h : (Piece.ofText p).foreignKey? <;> simp [foreignClauses, h]

theorem firsts_append_singleton (ds : List Definition) (d : Definition) :
    firsts (ds ++ [d]) =
      if (firsts ds).any (·.name == d.name) then firsts ds else firsts ds ++ [d] := by
  simp [firsts]

theorem definedNames_subset_append (ps : List (List Char)) (p : List Char) :
    definedNames ps ⊆ definedNames (ps ++ [p]) := by
  unfold definedNames
  rw [definitions_append_singleton, List.map_append]
  exact List.subset_append_left _ _

theorem lastTarget?_append_of_none (name : String) (h : (Piece.ofText p).foreignKey? = none) :
    lastTarget? name (ps ++ [p]) = lastTarget? name ps := by
  unfold lastTarget?
  rw [foreignClauses_append_singleton, h, Option.toList_none, List.append_nil]

theorem lastTarget?_append_of_clause (name : String) {key : String} {target : Target}
    (h : Piece.ofText p = .foreignKey key target) :
    lastTarget? name (ps ++ [p]) = if key = name then some target else lastTarget? name ps := by
  unfold lastTarget?
  rw [foreignClauses_append_singleton, h, Piece.foreignKey?, Option.toList_some, List.filter_append]
  by_cases hname : key = name <;> simp [hname]

theorem refusals_append (before ps qs : List (List Char)) :
    refusals before (ps ++ qs) = refusals before ps ++ refusals (before ++ ps) qs := by
  induction ps generalizing before with
  | nil => simp [refusals]
  | cons p ps ih => simp [refusals, ih, List.append_assoc]

theorem mem_refusals {before after : List (List Char)} {reason : Reason}
    (h : refusal? (definedNames before) p = some reason) :
    ⟨String.ofList p, reason⟩ ∈ refusals [] (before ++ p :: after) := by
  rw [refusals_append, List.nil_append, refusals, h]
  simp

theorem refusal?_congr {names names' : List String} (h : ∀ name, name ∈ names ↔ name ∈ names')
    (p : List Char) : refusal? names p = refusal? names' p := by
  unfold refusal?
  simp only [h]

/-- A piece that is refused is no clause for a key, and gives no name that was not there. -/
theorem of_refusal? {names : List String} {reason : Reason} (h : refusal? names p = some reason) :
    (Piece.ofText p).key? = none ∧ (Piece.ofText p).foreignKey? = none ∧
      ∀ d, (Piece.ofText p).definition? = some d → String.ofList d.name ∈ names := by
  unfold refusal? at h
  split at h
  · cases h
  · cases h
  · next hp => simp [hp, Piece.key?, Piece.foreignKey?, Piece.definition?]
  · next hp => simp [hp, Piece.key?, Piece.foreignKey?, Piece.definition?]
  · next d inlined hp =>
    refine ⟨by rw [hp]; rfl, by rw [hp]; rfl, fun e he => ?_⟩
    rw [hp, Piece.definition?] at he
    split at h
    · next hv => simp [hv] at he
    · split at h
      · next htaken =>
        split at he
        · cases he
          exact htaken
        · cases he
      · cases h

/-! What the body holds -/

/-- The column of a definition whose length can be read. -/
def Definition.column (d : Definition) : Column String :=
  Body.columnOf d (d.typeLength.toOption.getD none)

theorem Definition.column_of_length {d : Definition} {len : Option Int} (h : d.typeLength = .ok len) :
    d.column = Body.columnOf d len := by
  rw [Definition.column, h]
  rfl

namespace Body

variable {b b' : Body}

/-- All that a piece can do to a body, with the reason where it is refused. -/
inductive Adding (b : Body) (p : List Char) : Body → Prop
  | refused (reason : Reason) (why : refusal? (b.columns.map (·.name)) p = some reason) :
      Adding b p (b.skip p reason)
  | primaryKey (name : String) (clause : Piece.ofText p = .primaryKey name) :
      Adding b p { b with primaryKey := some name }
  | foreignKey (name : String) (target : Target) (clause : Piece.ofText p = .foreignKey name target) :
      Adding b p { b with foreignKeys := Assoc.put name target b.foreignKeys }
  | column (d : Definition) (inlined : Option Target) (len : Option Int)
      (defines : Piece.ofText p = .column d inlined)
      (valid : Validation.isValidName (String.ofList d.name) = true)
      (free : String.ofList d.name ∉ b.columns.map (·.name)) (length : d.typeLength = .ok len) :
      Adding b p (b.withColumn d len inlined)

theorem adding_of_add (h : b.add p = .ok b') : Adding b p b' := by
  unfold add at h
  split at h
  · next name hp => cases h; exact .primaryKey name hp
  · next name target hp => cases h; exact .foreignKey name target hp
  · next hp => cases h; exact .refused _ (by simp only [refusal?, hp])
  · next hp => cases h; exact .refused _ (by simp only [refusal?, hp])
  · next d inlined hp =>
    simp only [addColumn] at h
    split at h
    · next hv =>
      have hv : Validation.isValidName (String.ofList d.name) = false := by simpa using hv
      cases h
      exact .refused _ (by simp only [refusal?, hp, if_pos hv])
    · next hv =>
      have hv : Validation.isValidName (String.ofList d.name) = true := by simpa using hv
      split at h
      · next htaken =>
        have htaken : String.ofList d.name ∈ b.columns.map (·.name) := by simpa using htaken
        cases h
        exact .refused _ (by simp only [refusal?, hp, hv, Bool.true_eq_false, if_false, if_pos htaken])
      · next hfree =>
        obtain ⟨len, hlen, h⟩ := bind_eq_ok.1 h
        cases h
        exact .column d inlined len hp hv (by simpa using hfree) hlen

/-- A body that was read from pieces, as their texts tell. -/
structure Shows (b : Body) (ps : List (List Char)) : Prop where
  columns : b.columns = (firsts (definitions ps)).map (·.column)
  lengths : ∀ d ∈ firsts (definitions ps), d.typeLength = .ok d.column.typeLength
  primaryKey : b.primaryKey = (keyClauses ps).getLast?
  targets : ∀ name target, lastTarget? name ps = some target →
    Assoc.get? name b.foreignKeys = some target
  missing : ∀ names : List String, definedNames ps ⊆ names →
    (b.foreignKeys.map (·.1)).filter (· ∉ names) =
      ((foreignClauses ps).map (·.1)).eraseDups.filter (· ∉ names)
  skipped : b.skipped = refusals [] ps

theorem mem_names_iff (h : ofPieces ps = .ok b) (name : String) :
    name ∈ b.columns.map (·.name) ↔ name ∈ definedNames ps := by
  have hmem := mem_names_ofPieces h name.toList
  rw [String.ofList_toList] at hmem
  rw [hmem, definedNames, List.mem_map, List.mem_map]
  refine exists_congr fun d => and_congr_right fun _ => ?_
  rw [← String.ofList_inj, String.ofList_toList]

theorem shows_empty : empty.Shows [] where
  columns := rfl
  lengths := fun _ h => absurd h List.not_mem_nil
  primaryKey := rfl
  targets := fun _ _ h => nomatch h
  missing := fun _ _ => rfl
  skipped := rfl

/-- Whether the name of a definition was there before. -/
theorem Shows.any_name (h : b.Shows ps) (d : Definition) :
    (firsts (definitions ps)).any (·.name == d.name) = true ↔
      String.ofList d.name ∈ b.columns.map (·.name) := by
  rw [h.columns, List.map_map, List.any_eq_true, List.mem_map]
  refine exists_congr fun e => and_congr_right fun _ => ?_
  simp [Definition.column, columnOf, String.ofList_inj]

theorem Shows.firsts_of_taken (h : b.Shows ps)
    (htaken : ∀ d, (Piece.ofText p).definition? = some d →
      String.ofList d.name ∈ b.columns.map (·.name)) :
    firsts (definitions (ps ++ [p])) = firsts (definitions ps) := by
  rw [definitions_append_singleton]
  cases hd : (Piece.ofText p).definition? with
  | none => simp
  | some d =>
    rw [Option.toList_some, firsts_append_singleton, if_pos ((h.any_name d).2 (htaken d hd))]

/-! What a piece leaves as it was -/

section Kept

variable (h : b.Shows ps)

include h

theorem Shows.columns_append (hfirsts : firsts (definitions (ps ++ [p])) = firsts (definitions ps)) :
    b.columns = (firsts (definitions (ps ++ [p]))).map (·.column) := by
  rw [hfirsts]
  exact h.columns

theorem Shows.lengths_append (hfirsts : firsts (definitions (ps ++ [p])) = firsts (definitions ps)) :
    ∀ d ∈ firsts (definitions (ps ++ [p])), d.typeLength = .ok d.column.typeLength := by
  rw [hfirsts]
  exact h.lengths

theorem Shows.primaryKey_append (hkey : (Piece.ofText p).key? = none) :
    b.primaryKey = (keyClauses (ps ++ [p])).getLast? := by
  rw [keyClauses_append_singleton, hkey, Option.toList_none, List.append_nil]
  exact h.primaryKey

theorem Shows.targets_append (hforeign : (Piece.ofText p).foreignKey? = none) {name : String}
    {target : Target} (hlast : lastTarget? name (ps ++ [p]) = some target) :
    Assoc.get? name b.foreignKeys = some target := by
  rw [lastTarget?_append_of_none name hforeign] at hlast
  exact h.targets name target hlast

theorem Shows.missing_append (hforeign : (Piece.ofText p).foreignKey? = none) {names : List String}
    (hsub : definedNames (ps ++ [p]) ⊆ names) :
    (b.foreignKeys.map (·.1)).filter (· ∉ names) =
      ((foreignClauses (ps ++ [p])).map (·.1)).eraseDups.filter (· ∉ names) := by
  rw [foreignClauses_append_singleton, hforeign, Option.toList_none, List.append_nil]
  exact h.missing names (List.Subset.trans (definedNames_subset_append ps p) hsub)

/-- What is reported of pieces stays as it is behind a piece that is not refused. -/
theorem Shows.skipped_append (hnone : refusal? (definedNames ps) p = none) :
    b.skipped = refusals [] (ps ++ [p]) := by
  rw [refusals_append, List.nil_append, refusals, hnone, h.skipped]
  simp [refusals]

end Kept

/-! What a piece adds -/

theorem Shows.refused (h : b.Shows ps) (hnames : ∀ name, name ∈ b.columns.map (·.name) ↔
    name ∈ definedNames ps) {reason : Reason}
    (why : refusal? (b.columns.map (·.name)) p = some reason) :
    (b.skip p reason).Shows (ps ++ [p]) := by
  obtain ⟨hkey, hforeign, htaken⟩ := of_refusal? why
  have hfirsts := h.firsts_of_taken htaken
  have hskipped : b.skipped ++ [⟨String.ofList p, reason⟩] = refusals [] (ps ++ [p]) := by
    rw [refusals_append, List.nil_append, refusals, ← refusal?_congr hnames, why, ← h.skipped]
    rfl
  exact ⟨h.columns_append hfirsts, h.lengths_append hfirsts, h.primaryKey_append hkey,
    fun _ _ hlast => h.targets_append hforeign hlast, fun _ hsub => h.missing_append hforeign hsub,
    hskipped⟩

theorem Shows.withPrimaryKey (h : b.Shows ps) {name : String}
    (hp : Piece.ofText p = .primaryKey name) :
    Shows { b with primaryKey := some name } (ps ++ [p]) := by
  have hforeign : (Piece.ofText p).foreignKey? = none := by rw [hp]; rfl
  have hfirsts : firsts (definitions (ps ++ [p])) = firsts (definitions ps) :=
    h.firsts_of_taken fun d hd => by rw [hp] at hd; cases hd
  have hkey : some name = (keyClauses (ps ++ [p])).getLast? := by
    rw [keyClauses_append_singleton, hp, Piece.key?, Option.toList_some, List.getLast?_concat]
  exact ⟨h.columns_append hfirsts, h.lengths_append hfirsts, hkey,
    fun _ _ hlast => h.targets_append hforeign hlast, fun _ hsub => h.missing_append hforeign hsub,
    h.skipped_append (by simp only [refusal?, hp])⟩

theorem Shows.withForeignKey (h : b.Shows ps) {name : String} {target : Target}
    (hp : Piece.ofText p = .foreignKey name target) :
    Shows { b with foreignKeys := Assoc.put name target b.foreignKeys } (ps ++ [p]) := by
  have hkey : (Piece.ofText p).key? = none := by rw [hp]; rfl
  have hforeign : (Piece.ofText p).foreignKey? = some (name, target) := by rw [hp]; rfl
  have hfirsts : firsts (definitions (ps ++ [p])) = firsts (definitions ps) :=
    h.firsts_of_taken fun d hd => by rw [hp] at hd; cases hd
  refine ⟨h.columns_append hfirsts, h.lengths_append hfirsts, h.primaryKey_append hkey, ?_, ?_,
    h.skipped_append (by simp only [refusal?, hp])⟩
  · intro key last hlast
    rw [lastTarget?_append_of_clause key hp] at hlast
    split at hlast
    · next hkey =>
      cases hlast
      rw [← hkey]
      exact Assoc.get?_put_self name target b.foreignKeys
    · next hkey =>
      rw [Assoc.get?_put_of_ne (Ne.symm hkey)]
      exact h.targets key last hlast
  · intro names hsub
    have hold := h.missing names (List.Subset.trans (definedNames_subset_append ps p) hsub)
    rw [Assoc.keys_put, foreignClauses_append_singleton, hforeign, Option.toList_some,
      List.map_append, List.map_singleton, eraseDups_append_singleton]
    exact filter_insertLast_congr hold name

theorem Shows.withColumn (h : b.Shows ps) (hnames : ∀ name, name ∈ b.columns.map (·.name) ↔
    name ∈ definedNames ps) {d : Definition} {inlined : Option Target} {len : Option Int}
    (hp : Piece.ofText p = .column d inlined)
    (valid : Validation.isValidName (String.ofList d.name) = true)
    (free : String.ofList d.name ∉ b.columns.map (·.name)) (length : d.typeLength = .ok len) :
    (b.withColumn d len inlined).Shows (ps ++ [p]) := by
  have hkey : (Piece.ofText p).key? = none := by rw [hp]; rfl
  have hforeign : (Piece.ofText p).foreignKey? = none := by rw [hp]; rfl
  have hdefines : (Piece.ofText p).definition? = some d := by
    rw [hp, Piece.definition?, if_pos valid]
  have hfirsts : firsts (definitions (ps ++ [p])) = firsts (definitions ps) ++ [d] := by
    rw [definitions_append_singleton, hdefines, Option.toList_some, firsts_append_singleton,
      if_neg (mt (h.any_name d).1 free)]
  have hcolumn := Definition.column_of_length length
  have hnone : refusal? (definedNames ps) p = none := by
    rw [← refusal?_congr hnames]
    simp only [refusal?, hp, valid, Bool.true_eq_false, if_false, if_neg free]
  refine ⟨?_, ?_, h.primaryKey_append hkey, ?_, ?_, h.skipped_append hnone⟩
  · rw [hfirsts, List.map_append, ← h.columns, List.map_singleton, hcolumn]
    rfl
  · rw [hfirsts]
    intro e he
    rcases List.mem_append.1 he with he | he
    · exact h.lengths e he
    · rw [List.mem_singleton.1 he, hcolumn, length]
      rfl
  · intro key last hlast
    have hold := h.targets_append hforeign hlast
    cases inlined with
    | none => exact hold
    | some target => exact Assoc.get?_putNew_of_some hold
  · intro names hsub
    have hold := h.missing_append hforeign hsub
    have hname : String.ofList d.name ∈ names := by
      refine hsub ?_
      rw [definedNames, definitions_append_singleton, hdefines]
      simp
    rw [← hold]
    cases inlined with
    | none => rfl
    | some target => exact (congrArg _ (Assoc.keys_putNew ..)).trans (filter_insertLast (by simpa using hname))

theorem shows_ofPieces {ps : List (List Char)} (h : ofPieces ps = .ok b) : b.Shows ps := by
  induction ps using List.reverseRecOn generalizing b with
  | nil =>
    cases h
    exact shows_empty
  | append_singleton ps p ih =>
    rw [ofPieces_append_singleton] at h
    obtain ⟨a, ha, hadd⟩ := bind_eq_ok.1 h
    have hnames := mem_names_iff ha
    cases adding_of_add hadd with
    | refused reason why => exact (ih ha).refused hnames why
    | primaryKey name clause => exact (ih ha).withPrimaryKey clause
    | foreignKey name target clause => exact (ih ha).withForeignKey clause
    | column d inlined len defines valid free length =>
      exact (ih ha).withColumn hnames defines valid free length

theorem missingColumns_ofPieces {ps : List (List Char)} (h : ofPieces ps = .ok b) (table : String) :
    b.missingColumns table = (missingNames ps).map (missingFragment table) := by
  have hlost : b.missingColumns table =
      ((b.foreignKeys.map (·.1)).filter (· ∉ definedNames ps)).map (missingFragment table) := by
    rw [missingColumns, List.filter_map, List.map_map]
    refine congrArg (List.map _) (List.filter_congr fun e _ => ?_)
    rw [Bool.eq_iff_iff, Function.comp_apply, decide_eq_true_iff, ← mem_names_iff h]
    simp
  rw [hlost, (shows_ofPieces h).missing _ (List.Subset.refl _), missingNames]

/-- What is reported of a body is told by its pieces. -/
theorem fragments_ofPieces {ps : List (List Char)} (h : ofPieces ps = .ok b) (table : String) :
    b.skipped ++ b.missingColumns table = bodyFragments table ps := by
  rw [missingColumns_ofPieces h, (shows_ofPieces h).skipped, bodyFragments]

/-- The key that a body has chosen is the one that its pieces tell. -/
theorem choose_ofPieces {ps : List (List Char)} (h : ofPieces ps = .ok b) :
    PrimaryKey.choose b.primaryKey b.columns = keyName? ps := by
  have hshows := shows_ofPieces h
  have hany (name : String) : b.columns.any (·.name == name) = decide (name ∈ definedNames ps) := by
    rw [Bool.eq_iff_iff, decide_eq_true_iff, ← mem_names_iff h]
    simp
  have hinline : ((b.columns.find? (·.primaryKey)).bind fun c => Label.chosen c.name) =
      inlineKey? ps := by
    rw [hshows.columns, List.find?_map, Option.bind_map, inlineKey?, Option.map_eq_bind]
    rfl
  rw [PrimaryKey.choose, hinline, hshows.primaryKey, keyName?, clauseKey?]
  simp only [hany]
  cases (keyClauses ps).getLast? with
  | none => rfl
  | some name => by_cases hname : name ∈ definedNames ps <;> simp [Option.filter, hname]

end Body

end SchemaDesign.Ddl
