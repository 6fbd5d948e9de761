import SchemaDesign.Proofs.Ddl.Summary

/-! The trace that each piece of a body leaves in what is read: a column, a key, or a fragment. The clauses
that leave none are those in whose place another clause is taken, and those for the primary key that name
no column. -/
namespace SchemaDesign.Ddl
open Text

/-- Where a target leads among tables: to a column of the first table of its name, or nowhere. -/
def Target.reference (ts : List (Table String)) (target : Target) : Reference String :=
  match ts.find? (·.name == target.table) with
  | some u => if target.column ∈ u.columnNames then ⟨u.id, target.column⟩ else Reference.unset
  | none => Reference.unset

/-- A piece that stands behind others has become a column of the table, has its column as the key or led
to its target, or is reported. -/
inductive Traced (ts : List (Table String)) (t : Table String) (fragments : List Fragment)
    (before : List (List Char)) (p : List Char) : Prop
  | column (d : Definition) (inlined : Option Target) (defines : Piece.ofText p = .column d inlined)
      (first : String.ofList d.name ∉ definedNames before)
      (mem : ∃ c ∈ t.columns, c.name = String.ofList d.name ∧
        c.type = String.ofList (lower d.type) ∧ d.typeLength = .ok c.typeLength)
  | primaryKey (name : String) (clause : Piece.ofText p = .primaryKey name)
      (key : t.primaryKey = some name)
  | foreignKey (name : String) (target : Target) (clause : Piece.ofText p = .foreignKey name target)
      (key : ∃ c ∈ t.columns, c.name = name ∧ c.foreignKey = true ∧
        c.references = target.reference ts)
  | refused (reason : Reason) (why : refusal? (definedNames before) p = some reason)
      (mem : ⟨String.ofList p, reason⟩ ∈ fragments)
  | missing (name : String) (target : Target) (clause : Piece.ofText p = .foreignKey name target)
      (mem : missingFragment t.name name ∈ fragments)

/-- What a piece says stands at the end: the column that it names is the key that the pieces come to, or
the last clause for its foreign key leads where it leads. -/
structure Lasts (ts : List (Table String)) (ps : List (List Char)) (p : List Char) : Prop where
  primaryKey : ∀ name, Piece.ofText p = .primaryKey name → keyName? ps = some name
  foreignKey : ∀ name target, Piece.ofText p = .foreignKey name target → name ∈ definedNames ps →
    ∀ last, lastTarget? name ps = some last → last.reference ts = target.reference ts

section Inversion

variable {ts : List (Table String)} {t : Table String} {fragments : List Fragment}
  {before : List (List Char)} {p : List Char} {name : String}

/-- A primary key clause is traced by the key of the table alone. -/
theorem Traced.of_primaryKey (h : Traced ts t fragments before p)
    (hp : Piece.ofText p = .primaryKey name) : t.primaryKey = some name := by
  cases h with
  | primaryKey other clause key =>
    rw [hp] at clause
    cases clause
    exact key
  | column d inlined defines _ _ => rw [hp] at defines; cases defines
  | foreignKey other target clause _ => rw [hp] at clause; cases clause
  | refused reason why _ => simp [refusal?, hp] at why
  | missing other target clause _ => rw [hp] at clause; cases clause

theorem Traced.of_foreignKey {target : Target} (h : Traced ts t fragments before p)
    (hp : Piece.ofText p = .foreignKey name target) :
    (∃ c ∈ t.columns, c.name = name ∧ c.foreignKey = true ∧ c.references = target.reference ts) ∨
      missingFragment t.name name ∈ fragments := by
  cases h with
  | foreignKey other target' clause key =>
    rw [hp] at clause
    cases clause
    exact .inl key
  | missing other target' clause mem =>
    rw [hp] at clause
    cases clause
    exact .inr mem
  | column d inlined defines _ _ => rw [hp] at defines; cases defines
  | primaryKey other clause _ => rw [hp] at clause; cases clause
  | refused reason why _ => simp [refusal?, hp] at why

end Inversion

/-! The pieces -/

variable {ps before after : List (List Char)} {p : List Char}

theorem firsts_subset_append (ds es : List Definition) : firsts ds ⊆ firsts (ds ++ es) := by
  induction es using List.reverseRecOn with
  | nil => rw [List.append_nil]; exact List.Subset.refl _
  | append_singleton es e ih =>
    rw [← List.append_assoc, firsts_append_singleton]
    split
    · exact ih
    · exact List.Subset.trans ih (List.subset_append_left _ _)

theorem firsts_subset (ds : List Definition) : firsts ds ⊆ ds := by
  induction ds using List.reverseRecOn with
  | nil => exact List.Subset.refl _
  | append_singleton ds d ih =>
    rw [firsts_append_singleton]
    split
    · exact List.Subset.trans ih (List.subset_append_left _ _)
    · exact List.append_subset.2 ⟨List.Subset.trans ih (List.subset_append_left _ _),
        List.subset_append_right _ _⟩

/-- A definition that no piece before has taken the name of is the first of its name. -/
theorem mem_firsts {d : Definition} (h : (Piece.ofText p).definition? = some d)
    (hfree : String.ofList d.name ∉ definedNames before) :
    d ∈ firsts (definitions (before ++ p :: after)) := by
  have happend : definitions (before ++ p :: after) =
      definitions before ++ [d] ++ definitions after := by
    simp [definitions, h]
  rw [happend]
  refine firsts_subset_append _ _ ?_
  rw [firsts_append_singleton, if_neg]
  · exact List.mem_append_right _ List.mem_cons_self
  · intro hany
    obtain ⟨e, he, hname⟩ := List.any_eq_true.1 hany
    refine hfree (List.mem_map.2 ⟨e, firsts_subset _ he, ?_⟩)
    rw [beq_iff_eq.1 hname]

theorem of_refusal?_eq_none {names : List String} {d : Definition} {inlined : Option Target}
    (hp : Piece.ofText p = .column d inlined) (h : refusal? names p = none) :
    (Piece.ofText p).definition? = some d ∧ String.ofList d.name ∉ names := by
  simp only [refusal?, hp] at h
  split at h
  · cases h
  · next hv =>
    have hv : Validation.isValidName (String.ofList d.name) = true := by simpa using hv
    split at h
    · cases h
    · next hfree => exact ⟨by rw [hp, Piece.definition?, if_pos hv], hfree⟩

/-- No piece is refused for a column that is missing. -/
theorem reason_of_mem_refusals {f : Fragment} (h : f ∈ refusals before ps) (name table : String) :
    f.reason ≠ .missingColumn name table := by
  induction ps generalizing before with
  | nil => exact absurd h List.not_mem_nil
  | cons p ps ih =>
    rcases List.mem_append.1 h with h | h
    · obtain ⟨reason, hreason, rfl⟩ := Option.map_eq_some_iff.1 (Option.mem_toList.1 h)
      rintro rfl
      unfold refusal? at hreason
      split at hreason <;> (try split at hreason) <;> (try split at hreason) <;> cases hreason
    · exact ih h

/-- The clauses that are reported by name are those for columns that no piece defines. -/
theorem missingFragment_mem {table name : String} {target : Target} (hmem : p ∈ ps)
    (hp : Piece.ofText p = .foreignKey name target) :
    missingFragment table name ∈ bodyFragments table ps ↔ name ∉ definedNames ps := by
  have hclause : name ∈ (foreignClauses ps).map (·.1) :=
    List.mem_map.2 ⟨(name, target), List.mem_filterMap.2 ⟨p, hmem, by rw [hp]; rfl⟩, rfl⟩
  rw [bodyFragments, List.mem_append, List.mem_map]
  constructor
  · rintro (h | ⟨other, hother, he⟩)
    · exact absurd rfl (reason_of_mem_refusals h name table)
    · obtain rfl : other = name := (Reason.missingColumn.inj (congrArg Fragment.reason he)).1
      simpa using (List.mem_filter.1 hother).2
  · intro hnot
    exact .inr ⟨name, List.mem_filter.2 ⟨List.mem_eraseDups.2 hclause, by simpa using hnot⟩, rfl⟩

theorem lastTarget?_isSome {name : String} {target : Target} (hmem : p ∈ ps)
    (hp : Piece.ofText p = .foreignKey name target) : ∃ last, lastTarget? name ps = some last := by
  have hclause : (name, target) ∈ (foreignClauses ps).filter (·.1 == name) :=
    List.mem_filter.2 ⟨List.mem_filterMap.2 ⟨p, hmem, by rw [hp]; rfl⟩, beq_self_eq_true name⟩
  have hlast := List.getLast?_eq_some_getLast (List.ne_nil_of_mem hclause)
  exact ⟨_, by rw [lastTarget?, hlast]; rfl⟩

/-! One table -/

section Table

variable {batch : List Pending} {q : Pending} {id : String} {st : List Char × List Char} {b : Body}

theorem Target.reference_resolved (batch : List Pending) (target : Target) :
    target.reference (batch.map (resolveTable batch)) =
      (resolve? batch target).getD Reference.unset := by
  have hfind : (batch.map (resolveTable batch)).find? (·.name == target.table) =
      (batch.find? (·.table.name == target.table)).map (resolveTable batch) := by
    rw [List.find?_map]
    rfl
  rw [Target.reference, hfind, resolve?]
  cases batch.find? (·.table.name == target.table) with
  | none => rfl
  | some u =>
    simp only [Option.map_some, Option.bind_some, resolveTable_columnNames, ← Table.column?_isSome]
    split <;> rfl

theorem primaryKey_resolveTable (h : q.ReadFrom id st b) (batch : List Pending) :
    (resolveTable batch q).primaryKey = keyName? (pieces st.2) := by
  have hsame : (resolveTable batch q).primaryKey = q.table.primaryKey := by
    refine Table.primaryKey_congr (List.forall₂_map_right_iff.2 (List.forall₂_same.2 fun c _ => ?_))
    exact ⟨resolveColumn_name batch q c, by rw [resolveColumn_eq]⟩
  rw [hsame, h.table, ← Body.choose_ofPieces h.pieces]
  exact Table.primaryKey_normalise ⟨id, String.ofList st.1, "", b.columns⟩

/-- A column for which a target waits is a foreign key that leads there. -/
theorem resolveColumn_of_target (batch : List Pending) {c : Column String} {target : Target}
    (h : Assoc.get? c.name q.foreignKeys = some target) :
    (resolveColumn batch q c).foreignKey = true ∧
      (resolveColumn batch q c).references = target.reference (batch.map (resolveTable batch)) := by
  rw [Target.reference_resolved]
  simp only [resolveColumn, h, and_self]

theorem traced_primaryKey_iff (h : q.ReadFrom id st b) {name : String}
    (hp : Piece.ofText p = .primaryKey name) {ts : List (Table String)} {fragments : List Fragment} :
    Traced ts (resolveTable batch q) fragments before p ↔ keyName? (pieces st.2) = some name := by
  rw [← primaryKey_resolveTable h batch]
  exact ⟨fun htraced => htraced.of_primaryKey hp, fun hkey => .primaryKey name hp hkey⟩

theorem traced_foreignKey_iff (h : q.ReadFrom id st b) (hmem : p ∈ pieces st.2) {name : String}
    {target : Target} (hp : Piece.ofText p = .foreignKey name target) :
    Traced (batch.map (resolveTable batch)) (resolveTable batch q)
        (bodyFragments (String.ofList st.1) (pieces st.2)) before p ↔
      (name ∈ definedNames (pieces st.2) → ∀ last, lastTarget? name (pieces st.2) = some last →
        last.reference (batch.map (resolveTable batch)) =
          target.reference (batch.map (resolveTable batch))) := by
  have hname : (resolveTable batch q).name = String.ofList st.1 := by
    rw [resolveTable_name, h.table]
  have hget {last : Target} (hlast : lastTarget? name (pieces st.2) = some last) :
      Assoc.get? name q.foreignKeys = some last := by
    rw [h.foreignKeys]
    exact (Body.shows_ofPieces h.pieces).targets name last hlast
  constructor
  · intro htraced hdefined last hlast
    rcases htraced.of_foreignKey hp with ⟨c, hc, hcname, -, href⟩ | hmissing
    · obtain ⟨d, -, rfl⟩ := List.mem_map.1 hc
      rw [resolveColumn_name] at hcname
      have hlead := resolveColumn_of_target batch (hcname ▸ hget hlast)
      exact hlead.2.symm.trans href
    · rw [hname] at hmissing
      exact absurd hdefined ((missingFragment_mem hmem hp).1 hmissing)
  · intro hlasts
    by_cases hdefined : name ∈ definedNames (pieces st.2)
    · obtain ⟨last, hlast⟩ := lastTarget?_isSome hmem hp
      obtain ⟨c, hc, rfl⟩ := List.mem_map.1 ((Body.mem_names_iff h.pieces name).2 hdefined)
      have hcname := PrimaryKey.mark_name (PrimaryKey.choose b.primaryKey b.columns) c
      obtain ⟨hflag, href⟩ := resolveColumn_of_target batch (hcname ▸ hget hlast)
      refine .foreignKey c.name target hp ⟨_, resolveColumn_mem h hc, ?_, hflag, ?_⟩
      · rw [resolveColumn_name, hcname]
      · rw [href, hlasts hdefined last hlast]
    · refine .missing name target hp ?_
      rw [hname]
      exact (missingFragment_mem hmem hp).2 hdefined

/-- A definition that is the first of its name gives a column of its type and length. -/
theorem exists_column (h : q.ReadFrom id st b) (batch : List Pending)
    (hps : pieces st.2 = before ++ p :: after) {d : Definition}
    (hd : (Piece.ofText p).definition? = some d) (hfree : String.ofList d.name ∉ definedNames before) :
    ∃ c ∈ (resolveTable batch q).columns, c.name = String.ofList d.name ∧
      c.type = String.ofList (lower d.type) ∧ d.typeLength = .ok c.typeLength := by
  have hfirst : d ∈ firsts (definitions (pieces st.2)) := by
    rw [hps]
    exact mem_firsts hd hfree
  have hshows := Body.shows_ofPieces h.pieces
  have hcolumn : d.column ∈ b.columns := by
    rw [hshows.columns]
    exact List.mem_map_of_mem hfirst
  refine ⟨_, resolveColumn_mem h hcolumn, ?_, ?_, ?_⟩
  · rw [resolveColumn_name, PrimaryKey.mark_name]
    rfl
  · rw [resolveColumn_eq]
    exact PrimaryKey.mark_type _ _
  · rw [resolveColumn_eq, PrimaryKey.mark_typeLength]
    exact hshows.lengths d hfirst

/-- A piece that is no clause for a key becomes a column or is refused. -/
theorem traced_of_no_clause (h : q.ReadFrom id st b) (hps : pieces st.2 = before ++ p :: after)
    (hkey : (Piece.ofText p).key? = none) (hforeign : (Piece.ofText p).foreignKey? = none)
    {ts : List (Table String)} :
    Traced ts (resolveTable batch q) (bodyFragments (String.ofList st.1) (pieces st.2)) before p := by
  cases hrefusal : refusal? (definedNames before) p with
  | some reason =>
    refine .refused reason hrefusal (List.mem_append_left _ ?_)
    rw [hps]
    exact mem_refusals hrefusal
  | none =>
    cases hp : Piece.ofText p with
    | column d inlined =>
      obtain ⟨hdefines, hfree⟩ := of_refusal?_eq_none hp hrefusal
      exact .column d inlined hp hfree (exists_column h batch hps hdefines hfree)
    | primaryKey name => rw [hp] at hkey; cases hkey
    | foreignKey name target => rw [hp] at hforeign; cases hforeign
    | unsupported => simp [refusal?, hp] at hrefusal
    | unrecognised => simp [refusal?, hp] at hrefusal

theorem traced_iff_lasts (h : q.ReadFrom id st b) (hps : pieces st.2 = before ++ p :: after) :
    Traced (batch.map (resolveTable batch)) (resolveTable batch q)
        (bodyFragments (String.ofList st.1) (pieces st.2)) before p ↔
      Lasts (batch.map (resolveTable batch)) (pieces st.2) p := by
  have hmem : p ∈ pieces st.2 := by
    rw [hps]
    exact List.mem_append_right _ List.mem_cons_self
  cases hp : Piece.ofText p with
  | primaryKey name =>
    rw [traced_primaryKey_iff h hp]
    refine ⟨fun hkey => ⟨fun other he => ?_, fun other target he => ?_⟩,
      fun hlasts => hlasts.primaryKey name hp⟩
    · rw [hp] at he
      cases he
      exact hkey
    · rw [hp] at he
      cases he
  | foreignKey name target =>
    rw [traced_foreignKey_iff h hmem hp]
    refine ⟨fun hlead => ⟨fun other he => ?_, fun other target' he => ?_⟩,
      fun hlasts => hlasts.foreignKey name target hp⟩
    · rw [hp] at he
      cases he
    · rw [hp] at he
      cases he
      exact hlead
  | _ =>
    refine ⟨fun _ => ⟨fun _ he => ?_, fun _ _ he => ?_⟩, fun _ => ?_⟩
    · rw [hp] at he
      cases he
    · rw [hp] at he
      cases he
    · exact traced_of_no_clause h hps (by rw [hp]; rfl) (by rw [hp]; rfl)

end Table

/-! Whole texts -/

theorem readStatements_fragments {ids : TableId.Supply} {sts : List (List Char × List Char)}
    {qs : List Pending} {skipped : List Fragment} (h : readStatements ids sts = .ok (qs, skipped)) :
    skipped = sts.flatMap fun st => bodyFragments (String.ofList st.1) (pieces st.2) := by
  induction sts generalizing ids qs skipped with
  | nil => cases h; rfl
  | cons st sts ih =>
    obtain ⟨⟨q, inBody⟩, hq, h⟩ := bind_eq_ok.1 h
    obtain ⟨⟨rest, sk⟩, hr, h⟩ := bind_eq_ok.1 h
    cases h
    obtain ⟨b, hb, -, rfl⟩ := readTable_eq_ok (mapError_eq_ok.1 hq)
    rw [List.flatMap_cons, ← ih (mapError_eq_ok.1 hr), ← Body.fragments_ofPieces hb]

/-- What is skipped of a text, and what is lost of it. The report lists what stands between statements,
the pieces that are refused and the foreign key clauses for missing columns, and nothing else. Every piece
of a body is traced there or in its table exactly if it lasts. -/
theorem read_traces {ids : TableId.Supply} {text : String} {r : Report} (h : read ids text = .ok r) :
    r.skipped = skippedStatements (source text) ++
      (statements (source text)).flatMap (fun st => bodyFragments (String.ofList st.1) (pieces st.2)) ∧
    List.Forall₂ (fun st t => t.name = String.ofList st.1 ∧ t.primaryKey = keyName? (pieces st.2) ∧
        ∀ before p after, pieces st.2 = before ++ p :: after →
          (Traced r.tables t (bodyFragments t.name (pieces st.2)) before p ↔
            Lasts r.tables (pieces st.2) p))
      (statements (source text)) r.tables := by
  obtain ⟨batch, skipped, hb, hr, hs⟩ := read_eq_ok h
  refine ⟨by rw [hs, readStatements_fragments hb], ?_⟩
  rw [hr, List.forall₂_map_right_iff]
  refine (readStatements_eq_ok hb).2.imp ?_
  rintro st q ⟨b, hread⟩
  have hname : (resolveTable batch q).name = String.ofList st.1 := by
    rw [resolveTable_name, hread.table]
  refine ⟨hname, primaryKey_resolveTable hread batch, fun before p after hps => ?_⟩
  rw [hname]
  exact traced_iff_lasts hread hps

/-- A body with a clause for each kind of key, one of them for a column that is missing. -/
def keyedBody : List Char := "a INT, PRIMARY KEY (a), FOREIGN KEY (b) REFERENCES t(a)".toList

def keyedText : String := "CREATE TABLE t (" ++ String.ofList keyedBody ++ ");"

def keyedTable : Table String :=
  ⟨TableId.ofNumber 1, "t", "",
    [⟨"a", "int", none, false, true, true, false, Reference.unset⟩]⟩

theorem read_traces_keyedText :
    ([missingFragment "t" "b"] = skippedStatements (source keyedText) ++
      (statements (source keyedText)).flatMap fun st =>
        bodyFragments (String.ofList st.1) (pieces st.2)) ∧
    Traced [keyedTable] keyedTable (bodyFragments "t" (pieces keyedBody)) ["a INT".toList]
      "PRIMARY KEY (a)".toList := by
  have hread : read .counter keyedText = .ok ⟨[keyedTable], [missingFragment "t" "b"], []⟩ := by
    decide +kernel
  have hstatements : statements (source keyedText) = [("t".toList, keyedBody)] := by decide +kernel
  have hpieces : pieces keyedBody = ["a INT".toList] ++ "PRIMARY KEY (a)".toList ::
      ["FOREIGN KEY (b) REFERENCES t(a)".toList] := by decide +kernel
  have hp : Piece.ofText "PRIMARY KEY (a)".toList = .primaryKey "a" := by decide +kernel
  have hkey : keyName? (pieces keyedBody) = some "a" := by decide +kernel
  obtain ⟨hskipped, htables⟩ := read_traces hread
  refine ⟨hskipped, ?_⟩
  rw [hstatements] at htables
  obtain ⟨-, -, htraced⟩ := (List.forall₂_cons.1 htables).1
  refine (htraced _ _ _ hpieces).2 ⟨fun name clause => ?_, fun name target clause => ?_⟩
  · rw [hp] at clause
    cases clause
    exact hkey
  · rw [hp] at clause
    cases clause

def ghostTable : Table String :=
  ⟨TableId.ofNumber 1, "t", "", [⟨"a", "int", none, true, false, false, false, Reference.unset⟩]⟩

/-- A primary key clause for a column that is missing is in no table and no fragment. -/
theorem not_traced_ghostKey :
    read .counter "CREATE TABLE t (a INT, PRIMARY KEY (b));" = .ok ⟨[ghostTable], [], []⟩ ∧
      statements (source "CREATE TABLE t (a INT, PRIMARY KEY (b));") =
        [("t".toList, "a INT, PRIMARY KEY (b)".toList)] ∧
      pieces "a INT, PRIMARY KEY (b)".toList = ["a INT".toList, "PRIMARY KEY (b)".toList] ∧
      ¬ Traced [ghostTable] ghostTable [] ["a INT".toList] "PRIMARY KEY (b)".toList := by
  refine ⟨by decide +kernel, by decide +kernel, by decide +kernel, fun htraced => ?_⟩
  have hp : Piece.ofText "PRIMARY KEY (b)".toList = .primaryKey "b" := by decide +kernel
  have hnone : ghostTable.primaryKey = none := by decide +kernel
  have hkey := htraced.of_primaryKey hp
  rw [hnone] at hkey
  cases hkey

end SchemaDesign.Ddl
