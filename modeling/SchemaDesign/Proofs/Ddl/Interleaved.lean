import SchemaDesign.Proofs.Ddl.Cut
import SchemaDesign.Proofs.Ddl.ForeignKey
import SchemaDesign.Proofs.Result

/-! The place of the clauses for keys in a body. They come to the same table wherever they stand between
the other pieces, as long as their own order stays. -/
namespace SchemaDesign.Ddl
open Text

/-- Whether a piece is a clause for a primary key or a foreign key that is read as one. -/
def isKeyClause (p : List Char) : Bool := (primaryKeyClause? p).isSome || (foreignKeyClause? p).isSome

/-- The same clauses for keys in the same order, and the same other pieces in the same order. -/
structure Interleaved (ps qs : List (List Char)) : Prop where
  clauses : ps.filter isKeyClause = qs.filter isKeyClause
  others : ps.filter (!isKeyClause ·) = qs.filter (!isKeyClause ·)

instance (ps qs : List (List Char)) : Decidable (Interleaved ps qs) :=
  decidable_of_iff (ps.filter isKeyClause = qs.filter isKeyClause ∧
    ps.filter (!isKeyClause ·) = qs.filter (!isKeyClause ·)) ⟨fun h => ⟨h.1, h.2⟩, fun h => ⟨h.1, h.2⟩⟩

theorem Interleaved.filter {ps qs : List (List Char)} (h : Interleaved ps qs) (keep : List Char → Bool) :
    Interleaved (ps.filter keep) (qs.filter keep) where
  clauses := by rw [List.filter_comm, h.clauses, List.filter_comm]
  others := by rw [List.filter_comm, h.others, List.filter_comm]

/-! What each kind of piece says -/

section Kinds

variable {p : List Char}

theorem ofText_of_isKeyClause (h : isKeyClause p = true) :
    (∃ name, Piece.ofText p = .primaryKey name) ∨
      ∃ name target, Piece.ofText p = .foreignKey name target := by
  unfold Piece.ofText
  cases hprimary : primaryKeyClause? p with
  | some name => exact .inl ⟨name, rfl⟩
  | none =>
    cases hforeign : foreignKeyClause? p with
    | some clause => exact .inr ⟨clause.1, clause.2, rfl⟩
    | none => simp [isKeyClause, hprimary, hforeign] at h

/-- Other pieces name no key of the table. -/
theorem no_key_of_other (h : isKeyClause p = false) :
    (Piece.ofText p).key? = none ∧ (Piece.ofText p).foreignKey? = none := by
  obtain ⟨hprimary, hforeign⟩ : primaryKeyClause? p = none ∧ foreignKeyClause? p = none := by
    simpa [isKeyClause] using h
  unfold Piece.ofText
  rw [hprimary, hforeign]
  dsimp only
  split
  · exact ⟨rfl, rfl⟩
  · cases definition? p <;> exact ⟨rfl, rfl⟩

theorem own?_of_isKeyClause (h : isKeyClause p = true) : (Piece.ofText p).own? = none := by
  rcases ofText_of_isKeyClause h with ⟨name, hp⟩ | ⟨name, target, hp⟩
  · rw [hp]
    rfl
  · rw [hp]
    rfl

end Kinds

theorem keyClauses_filter (ps : List (List Char)) :
    keyClauses (ps.filter isKeyClause) = keyClauses ps :=
  filterMap_filter_of_none (fun _ hp => (no_key_of_other hp).1) ps

theorem foreignClauses_filter (ps : List (List Char)) :
    foreignClauses (ps.filter isKeyClause) = foreignClauses ps :=
  filterMap_filter_of_none (fun _ hp => (no_key_of_other hp).2) ps

theorem ownTargets_filter (ps : List (List Char)) :
    ownTargets (ps.filter (!isKeyClause ·)) = ownTargets ps :=
  filterMap_filter_of_none (fun _ hp => own?_of_isKeyClause (by simpa using hp)) ps

namespace Interleaved

variable {ps qs : List (List Char)}

theorem keyClauses (h : Interleaved ps qs) : keyClauses ps = keyClauses qs := by
  rw [← keyClauses_filter ps, h.clauses, keyClauses_filter]

theorem foreignClauses (h : Interleaved ps qs) : foreignClauses ps = foreignClauses qs := by
  rw [← foreignClauses_filter ps, h.clauses, foreignClauses_filter]

theorem ownTargets (h : Interleaved ps qs) : ownTargets ps = ownTargets qs := by
  rw [← ownTargets_filter ps, h.others, ownTargets_filter]

theorem target? (h : Interleaved ps qs) (name : String) : target? name ps = target? name qs := by
  simp only [Ddl.target?, lastTarget?, ownTarget?, h.foreignClauses, h.ownTargets]

theorem missingNames (h : Interleaved ps qs) : missingNames ps = missingNames qs := by
  simp only [Ddl.missingNames, ← ownTargets_map_fst, h.foreignClauses, h.ownTargets]

end Interleaved

/-! What the other pieces leave in a body -/

namespace Body

/-- The columns of a body with the pieces that it has no place for, but for its keys. -/
def rows (b : Body) : List (Column String) × List Fragment := (b.columns, b.skipped)

variable {a b : Body} {p : List Char}

theorem rows_add_clause (h : isKeyClause p = true) (b : Body) : (b.add p).map rows = .ok b.rows := by
  rcases ofText_of_isKeyClause h with ⟨name, hp⟩ | ⟨name, target, hp⟩
  · rw [add, hp]
    rfl
  · rw [add, hp]
    rfl

/-- What a piece does to the rows, the rows tell. -/
theorem rows_add_congr (h : a.rows = b.rows) (p : List Char) :
    (a.add p).map rows = (b.add p).map rows := by
  obtain ⟨hcolumns, hskipped⟩ := Prod.mk.inj h
  have hskip (reason : Reason) : (a.skip p reason).rows = (b.skip p reason).rows := by
    simp only [rows, skip, hcolumns, hskipped]
  unfold add
  split
  · exact congrArg Except.ok h
  · exact congrArg Except.ok h
  · exact congrArg Except.ok (hskip _)
  · exact congrArg Except.ok (hskip _)
  · next d inlined hp =>
    simp only [addColumn, hcolumns]
    split
    · exact congrArg Except.ok (hskip _)
    · split
      · exact congrArg Except.ok (hskip _)
      · cases d.typeLength with
        | error e => rfl
        | ok len => exact congrArg Except.ok (congrArg (Prod.mk _) hskipped)

/-- The clauses for keys leave the rows to the other pieces. -/
theorem rows_ofPieces_filter (ps : List (List Char)) :
    (ofPieces (ps.filter (!isKeyClause ·))).map rows = (ofPieces ps).map rows := by
  induction ps using List.reverseRecOn with
  | nil => rfl
  | append_singleton ps p ih =>
    rw [ofPieces_append_singleton, List.filter_append]
    by_cases hp : isKeyClause p = true
    · have hclause : (ofPieces ps >>= fun b => b.add p).map rows = (ofPieces ps).map rows := by
        cases ofPieces ps with
        | error e => rfl
        | ok b => exact rows_add_clause hp b
      rw [hclause, List.filter_cons_of_neg (by simpa using hp), List.filter_nil, List.append_nil]
      exact ih
    · rw [List.filter_cons_of_pos (by simpa using hp), List.filter_nil, ofPieces_append_singleton]
      exact bind_map_congr ih fun a b hrows => rows_add_congr hrows p

end Body

/-! Whole bodies -/

/-- Two readings of a table that fail alike, or give the same table but for its id, the same target for
each column and the same fragments. -/
inductive SameTable : Except NumeralFault (Pending × List Fragment) →
    Except NumeralFault (Pending × List Fragment) → Prop
  | fault (e : NumeralFault) : SameTable (.error e) (.error e)
  | table {p q : Pending} (skipped : List Fragment) (same : q.table = { p.table with id := q.table.id })
      (targets : ∀ name, Assoc.get? name q.foreignKeys = Assoc.get? name p.foreignKeys) :
      SameTable (.ok (p, skipped)) (.ok (q, skipped))

/-- Where the clauses for keys stand between the other pieces of a body does not matter, nor do the blanks
around a piece. -/
theorem readTable_interleaved {ps qs : List (List Char)} (hps : ∀ p ∈ ps, Undivided 0 p)
    (hqs : ∀ q ∈ qs, Undivided 0 q) (h : Interleaved (ps.map trim) (qs.map trim))
    (id id' name : String) :
    SameTable (readTable id name ([','].intercalate ps)) (readTable id' name ([','].intercalate qs)) := by
  have hpieces : Interleaved (pieces ([','].intercalate ps)) (pieces ([','].intercalate qs)) := by
    rw [pieces_intercalate hps, pieces_intercalate hqs]
    exact h.filter _
  have hrows : (Body.ofPieces (pieces ([','].intercalate ps))).map Body.rows =
      (Body.ofPieces (pieces ([','].intercalate qs))).map Body.rows := by
    rw [← Body.rows_ofPieces_filter, hpieces.others, Body.rows_ofPieces_filter]
  unfold readTable
  rcases map_eq_map hrows with ⟨e, ha, hb⟩ | ⟨a, b, ha, hb, hab⟩
  · rw [ha, hb]
    exact .fault e
  · obtain ⟨hcolumns, hskipped⟩ := Prod.mk.inj hab
    have hkey : a.primaryKey = b.primaryKey := by
      rw [(Body.shows_ofPieces ha).primaryKey, hpieces.keyClauses, (Body.shows_ofPieces hb).primaryKey]
    have hmissing : a.missingColumns name = b.missingColumns name := by
      rw [Body.missingColumns_ofPieces ha, hpieces.missingNames, Body.missingColumns_ofPieces hb]
    rw [ha, hb]
    change SameTable (.ok (_, a.skipped ++ a.missingColumns name))
      (.ok (_, b.skipped ++ b.missingColumns name))
    rw [hskipped, hmissing, hcolumns, hkey]
    refine .table _ rfl fun key => ?_
    rw [Body.get?_foreignKeys hb, ← hpieces.target?, ← Body.get?_foreignKeys ha]

/-- A body whose clauses stand behind the columns that they name, one of them over the target inside a
definition, another for a column that is missing. -/
def lateClauses : List (List Char) :=
  ["id INT".toList, "x INT REFERENCES a(id)".toList, "x TEXT".toList, "PRIMARY KEY (x)".toList,
    "FOREIGN KEY (x) REFERENCES b(id)".toList, "FOREIGN KEY (gone) REFERENCES b(id)".toList]

/-- The same pieces on lines of their own, with two of the clauses before the columns. -/
def earlyClauses : List (List Char) :=
  ["PRIMARY KEY (x)".toList, "\nFOREIGN KEY (x) REFERENCES b(id)".toList, "\nid INT".toList,
    "\nx INT REFERENCES a(id)".toList, "\nFOREIGN KEY (gone) REFERENCES b(id)".toList,
    "\nx TEXT".toList]

def latePending : Pending :=
  ⟨⟨"1", "t", "",
    [⟨"id", "int", none, true, false, false, false, Reference.unset⟩,
     ⟨"x", "int", none, false, true, true, false, Reference.unset⟩]⟩,
    [("x", ⟨"b", "id"⟩), ("gone", ⟨"b", "id"⟩)]⟩

theorem readTable_interleaved_earlyClauses :
    SameTable (.ok (latePending, [⟨"x TEXT", .duplicateColumn "x"⟩, missingFragment "t" "gone"]))
      (readTable "2" "t" ([','].intercalate earlyClauses)) := by
  have hlate : readTable "1" "t" ([','].intercalate lateClauses) =
      .ok (latePending, [⟨"x TEXT", .duplicateColumn "x"⟩, missingFragment "t" "gone"]) := by
    decide +kernel
  rw [← hlate]
  exact readTable_interleaved (by decide +kernel) (by decide +kernel) (by decide +kernel) "1" "2" "t"

end SchemaDesign.Ddl
