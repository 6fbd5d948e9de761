import Mathlib.Data.List.Induction
import SchemaDesign.Proofs.Assoc
import SchemaDesign.Proofs.Ddl.Inside

/-! What becomes of the parts of a text that is read. The segments cover the text, each statement becomes
a table, and each piece of its body a column, a foreign key or a fragment. -/
namespace SchemaDesign.Ddl
open Text

namespace Body

variable {a b b' : Body} {piece : List Char}

/-- What a piece has left behind in a body that was read. -/
inductive Holds (b : Body) (piece : List Char) : Prop
  | primaryKey (name : String) (clause : Piece.ofText piece = .primaryKey name)
  | foreignKey (name : String) (target : Target) (clause : Piece.ofText piece = .foreignKey name target)
      (mem : name ∈ b.foreignKeys.map (·.1))
  | column (d : Definition) (inlined : Option Target) (len : Option Int)
      (defines : Piece.ofText piece = .column d inlined) (length : d.typeLength = .ok len)
      (mem : columnOf d len ∈ b.columns)
  | reported (reason : Reason) (mem : ⟨String.ofList piece, reason⟩ ∈ b.skipped)

/-- Nothing is taken back from a body while it is read. -/
structure Grows (a b : Body) : Prop where
  columns : a.columns ⊆ b.columns
  keys : a.foreignKeys.map (·.1) ⊆ b.foreignKeys.map (·.1)
  skipped : a.skipped ⊆ b.skipped

theorem Holds.mono (h : a.Holds piece) (hg : Grows a b) : b.Holds piece := by
  cases h with
  | primaryKey name clause => exact .primaryKey name clause
  | foreignKey name target clause mem => exact .foreignKey name target clause (hg.keys mem)
  | column d inlined len defines length mem => exact .column d inlined len defines length (hg.columns mem)
  | reported reason mem => exact .reported reason (hg.skipped mem)

theorem grows_add (h : b.add piece = .ok b') : Grows b b' := by
  obtain ⟨k, -, rfl⟩ | ⟨k, target, -, rfl⟩ | ⟨reason, rfl⟩ | ⟨d, inlined, len, -, -, -, -, rfl⟩ :=
    add_eq_ok h
  · exact ⟨fun _ h => h, fun _ h => h, fun _ h => h⟩
  · exact ⟨fun _ h => h, Assoc.keys_subset_put, fun _ h => h⟩
  · exact ⟨fun _ h => h, fun _ h => h, List.subset_append_left _ _⟩
  · refine ⟨List.subset_append_left _ _, ?_, fun _ h => h⟩
    cases inlined with
    | none => exact fun _ h => h
    | some target => exact Assoc.keys_subset_putNew

theorem holds_add (h : b.add piece = .ok b') : b'.Holds piece := by
  obtain ⟨k, hp, rfl⟩ | ⟨k, target, hp, rfl⟩ | ⟨reason, rfl⟩ | ⟨d, inlined, len, hp, hlen, -, -, rfl⟩ :=
    add_eq_ok h
  · exact .primaryKey k hp
  · exact .foreignKey k target hp (Assoc.key_mem_put _)
  · exact .reported reason (List.mem_append_right _ List.mem_cons_self)
  · exact .column d inlined len hp hlen (List.mem_append_right _ List.mem_cons_self)

theorem holds_ofPieces {ps : List (List Char)} (h : ofPieces ps = .ok b) : ∀ p ∈ ps, b.Holds p := by
  induction ps using List.reverseRecOn generalizing b with
  | nil => exact fun p hp => absurd hp List.not_mem_nil
  | append_singleton ps q ih =>
    rw [ofPieces_append_singleton] at h
    obtain ⟨a, ha, hadd⟩ := bind_eq_ok.1 h
    intro p hp
    rcases List.mem_append.1 hp with hp | hp
    · exact (ih ha p hp).mono (grows_add hadd)
    · rw [List.mem_singleton.1 hp]
      exact holds_add hadd

end Body

/-! One table -/

/-- What a piece has become in the table that was read from its body. Of a clause for the primary key
nothing more is told here, since a later one can take its place. -/
inductive Placed (t : Table String) (skipped : List Fragment) (piece : List Char) : Prop
  | primaryKey (name : String) (clause : Piece.ofText piece = .primaryKey name)
  | foreignKey (name : String) (target : Target) (clause : Piece.ofText piece = .foreignKey name target)
      (key : ∃ c ∈ t.columns, c.name = name ∧ c.foreignKey = true)
  | missing (name : String) (target : Target) (clause : Piece.ofText piece = .foreignKey name target)
      (mem : ⟨"FOREIGN KEY (" ++ name ++ ")", .missingColumn name t.name⟩ ∈ skipped)
  | column (d : Definition) (inlined : Option Target) (defines : Piece.ofText piece = .column d inlined)
      (mem : ∃ c ∈ t.columns, c.name = String.ofList d.name ∧
        c.type = String.ofList (lower d.type) ∧ d.typeLength = .ok c.typeLength)
  | reported (reason : Reason) (mem : ⟨String.ofList piece, reason⟩ ∈ skipped)

theorem resolveColumn_mem {batch : List Pending} {p : Pending} {id : String}
    {st : List Char × List Char} {b : Body} (h : p.ReadFrom id st b) {c : Column String}
    (hc : c ∈ b.columns) :
    resolveColumn batch p (PrimaryKey.mark (PrimaryKey.choose b.primaryKey b.columns) c) ∈
      (resolveTable batch p).columns := by
  refine List.mem_map_of_mem ?_
  rw [h.table]
  exact List.mem_map_of_mem hc

/-- A column whose name is a key among the recorded targets becomes a foreign key. -/
theorem resolveColumn_foreignKey {batch : List Pending} {p : Pending} {c : Column String}
    (h : c.name ∈ p.foreignKeys.map (·.1)) : (resolveColumn batch p c).foreignKey = true := by
  have hget : (Assoc.get? c.name p.foreignKeys).isSome = true := by
    obtain ⟨⟨key, target⟩, he, rfl⟩ := List.mem_map.1 h
    simpa [Assoc.get?] using ⟨target, he⟩
  obtain ⟨target, htarget⟩ := Option.isSome_iff_exists.1 hget
  simp only [resolveColumn, htarget]

theorem placed_of_holds {batch : List Pending} {p : Pending} {id : String}
    {st : List Char × List Char} {b : Body} {skipped : List Fragment} {piece : List Char}
    (h : p.ReadFrom id st b) (hskipped : b.skipped ⊆ skipped)
    (hmissing : b.missingColumns (String.ofList st.1) ⊆ skipped) (hp : b.Holds piece) :
    Placed (resolveTable batch p) skipped piece := by
  cases hp with
  | primaryKey name clause => exact .primaryKey name clause
  | foreignKey name target clause mem =>
    by_cases hname : name ∈ b.columns.map (·.name)
    · obtain ⟨c, hc, rfl⟩ := List.mem_map.1 hname
      refine .foreignKey c.name target clause ⟨_, resolveColumn_mem h hc, ?_, ?_⟩
      · rw [resolveColumn_name, PrimaryKey.mark_name]
      · refine resolveColumn_foreignKey ?_
        rwa [PrimaryKey.mark_name, h.foreignKeys]
    · refine .missing name target clause (hmissing ?_)
      obtain ⟨e, he, rfl⟩ := List.mem_map.1 mem
      have hlost : b.columns.any (·.name == e.1) = false := by simpa using hname
      have htable : (resolveTable batch p).name = String.ofList st.1 := by
        rw [resolveTable_name, h.table]
      rw [htable]
      exact List.mem_map.2 ⟨e, List.mem_filter.2 ⟨he, by simp [hlost]⟩, rfl⟩
  | column d inlined len defines length mem =>
    refine .column d inlined defines ⟨_, resolveColumn_mem h mem, ?_, ?_, ?_⟩
    · rw [resolveColumn_name, PrimaryKey.mark_name]
      rfl
    · rw [resolveColumn_eq]
      exact PrimaryKey.mark_type _ _
    · have hlen : (Body.columnOf d len).typeLength = len := rfl
      rw [resolveColumn_eq, length, PrimaryKey.mark_typeLength, hlen]
  | reported reason mem => exact .reported reason (hskipped mem)

/-! Whole texts -/

theorem readStatements_skipped {ids : TableId.Supply} {sts : List (List Char × List Char)} {ps : List Pending}
    {skipped : List Fragment} (h : readStatements ids sts = .ok (ps, skipped)) :
    List.Forall₂ (fun st p => ∃ b, p.ReadFrom p.table.id st b ∧ b.skipped ⊆ skipped ∧
      b.missingColumns (String.ofList st.1) ⊆ skipped) sts ps := by
  induction sts generalizing ids ps skipped with
  | nil => cases h; exact .nil
  | cons st sts ih =>
    obtain ⟨⟨p, inBody⟩, hp, h⟩ := bind_eq_ok.1 h
    obtain ⟨⟨rest, sk⟩, hr, h⟩ := bind_eq_ok.1 h
    cases h
    obtain ⟨b, hb, rfl, rfl⟩ := readTable_eq_ok (mapError_eq_ok.1 hp)
    have hrest := ih (mapError_eq_ok.1 hr)
    refine .cons ⟨b, ⟨hb, rfl, rfl⟩, ?_, ?_⟩ (hrest.imp ?_)
    · exact fun f hf => List.mem_append_left _ (List.mem_append_left _ hf)
    · exact fun f hf => List.mem_append_left _ (List.mem_append_right _ hf)
    · rintro st p ⟨c, hc, hs, hm⟩
      exact ⟨c, hc, fun f hf => List.mem_append_right _ (hs hf),
        fun f hf => List.mem_append_right _ (hm hf)⟩

/-- Nothing of a text is passed over by its segments. -/
theorem flatMap_text_segments (s : List Char) : (segments s).flatMap (·.text) = s := by
  refine segments_induction (P := fun s => (segments s).flatMap (·.text) = s) ?_ ?_ ?_ s
  · intro s hf
    rw [segments_of_none hf]
    simp [Segment.text]
  · intro s f body rest hf hb ih
    rw [segments_of_closed hf hb, List.flatMap_cons, List.flatMap_cons, ih, find?_append hf,
      splitBody_eq_some hb]
    simp [Segment.text]
  · intro s f hf hb ih
    rw [segments_of_unclosed hf hb, List.flatMap_cons, List.flatMap_cons, ih, find?_append hf]
    simp [Segment.text, splitUnclosed_append]

/-- A report accounts for a text: what stands between its statements is reported, and each statement has
become a table in which its pieces have a place. -/
structure Report.Accounts (r : Report) (text : String) : Prop where
  segments : (segments (source text)).flatMap (·.text) = source text
  outside : skippedStatements (source text) ⊆ r.skipped
  statements : List.Forall₂ (fun st t => t.name = String.ofList st.1 ∧
    ∀ piece ∈ pieces st.2, Placed t r.skipped piece) (statements (source text)) r.tables

theorem read_accounts {ids : TableId.Supply} {text : String} {r : Report} (h : read ids text = .ok r) :
    r.Accounts text where
  segments := flatMap_text_segments _
  outside := by
    obtain ⟨batch, skipped, -, -, hs⟩ := read_eq_ok h
    rw [hs]
    exact List.subset_append_left _ _
  statements := by
    obtain ⟨batch, skipped, hb, hr, hs⟩ := read_eq_ok h
    rw [hr, List.forall₂_map_right_iff]
    refine (readStatements_skipped hb).imp ?_
    rintro st p ⟨b, hread, hskipped, hmissing⟩
    have hsub : skipped ⊆ r.skipped := by
      rw [hs]
      exact List.subset_append_right _ _
    refine ⟨by rw [resolveTable_name, hread.table], fun piece hpiece => ?_⟩
    exact placed_of_holds hread (fun f hf => hsub (hskipped hf)) (fun f hf => hsub (hmissing hf))
      (Body.holds_ofPieces hread.pieces piece hpiece)

end SchemaDesign.Ddl
