import SchemaDesign.Ddl.Body
import SchemaDesign.Proofs.Ddl.Clause
import SchemaDesign.Proofs.Model.PrimaryKey
import SchemaDesign.Proofs.Result
import SchemaDesign.Proofs.Text.LowerCase

/-! What the pieces of a table body can do to the table that is read, and the law of the columns that
they leave behind. -/
namespace SchemaDesign.Ddl

namespace Body

variable {b b' : Body} {piece : List Char}

/-- The table with the column of a definition, whose reference waits unless there is one already. -/
def withColumn (b : Body) (d : Definition) (typeLength : Option Int) (inlined : Option Target) : Body :=
  { b with
    columns := b.columns ++ [columnOf d typeLength]
    foreignKeys :=
      match inlined with
      | some target => Assoc.putNew (String.ofList d.name) target b.foreignKeys
      | none => b.foreignKeys }

theorem addColumn_eq_ok {d : Definition} {inlined : Option Target}
    (h : b.addColumn piece d inlined = .ok b') :
    (∃ reason, b' = b.skip piece reason) ∨
      ∃ len, d.typeLength = .ok len ∧ Validation.isValidName (String.ofList d.name) = true ∧
        String.ofList d.name ∉ b.columns.map (·.name) ∧ b' = b.withColumn d len inlined := by
  simp only [addColumn] at h
  split at h
  · cases h; exact .inl ⟨_, rfl⟩
  · next hv =>
    split at h
    · cases h; exact .inl ⟨_, rfl⟩
    · next hd =>
      obtain ⟨len, hlen, h⟩ := bind_eq_ok.1 h
      cases h
      refine .inr ⟨len, hlen, by simpa using hv, ?_, rfl⟩
      simpa using hd

/-- A piece sets the primary key, records a foreign key, is skipped, or becomes the next column. -/
theorem add_eq_ok (h : b.add piece = .ok b') :
    (∃ k, Piece.ofText piece = .primaryKey k ∧ b' = { b with primaryKey := some k }) ∨
    (∃ k target, Piece.ofText piece = .foreignKey k target ∧
      b' = { b with foreignKeys := Assoc.put k target b.foreignKeys }) ∨
    (∃ reason, b' = b.skip piece reason) ∨
    (∃ d inlined len, Piece.ofText piece = .column d inlined ∧ d.typeLength = .ok len ∧
      Validation.isValidName (String.ofList d.name) = true ∧
      String.ofList d.name ∉ b.columns.map (·.name) ∧ b' = b.withColumn d len inlined) := by
  unfold add at h
  split at h
  · next k hk => cases h; exact .inl ⟨k, hk, rfl⟩
  · next k target hk => cases h; exact .inr (.inl ⟨k, target, hk, rfl⟩)
  · cases h; exact .inr (.inr (.inl ⟨_, rfl⟩))
  · cases h; exact .inr (.inr (.inl ⟨_, rfl⟩))
  · next d inlined hd =>
    obtain hs | ⟨len, hlen, hv, hn, rfl⟩ := addColumn_eq_ok h
    · exact .inr (.inr (.inl hs))
    · exact .inr (.inr (.inr ⟨d, inlined, len, hd, hlen, hv, hn, rfl⟩))

/-- At most one column is added, and none by a clause of the table. -/
theorem columns_add (h : b.add piece = .ok b') :
    b'.columns = b.columns ∨ isTableClause piece = false ∧ ∃ d inlined len,
      Piece.ofText piece = .column d inlined ∧ d.typeLength = .ok len ∧
      b'.columns = b.columns ++ [columnOf d len] := by
  obtain ⟨k, -, rfl⟩ | ⟨k, target, -, rfl⟩ | ⟨reason, rfl⟩ | ⟨d, inlined, len, hd, hlen, -, -, rfl⟩ :=
    add_eq_ok h
  · exact .inl rfl
  · exact .inl rfl
  · exact .inl rfl
  · exact .inr ⟨(Piece.ofText_eq_column.1 hd).1, d, inlined, len, hd, hlen, rfl⟩

theorem ofPieces_append_singleton (ps : List (List Char)) (p : List Char) :
    ofPieces (ps ++ [p]) = (ofPieces ps >>= fun b => b.add p) := by
  simp [ofPieces]

/-- The law of columns while a body is read: valid and distinct names, types, and no references yet.
-/
structure Fresh (cs : List (Column String)) : Prop where
  names_nodup : (cs.map (·.name)).Nodup
  names_valid : ∀ c ∈ cs, Validation.isValidName c.name = true
  types : ∀ c ∈ cs, c.type ≠ ""
  plain : ∀ c ∈ cs, c.foreignKey = false ∧ c.references = Reference.unset

theorem fresh_empty : Fresh empty.columns :=
  ⟨List.nodup_nil, by simp [empty], by simp [empty], by simp [empty]⟩

theorem Fresh.append_columnOf {cs : List (Column String)} (h : Fresh cs) {d : Definition}
    {len : Option Int} (ht : d.type ≠ []) (hv : Validation.isValidName (String.ofList d.name) = true)
    (hn : String.ofList d.name ∉ cs.map (·.name)) : Fresh (cs ++ [columnOf d len]) where
  names_nodup := by
    rw [List.map_append, List.nodup_append]
    refine ⟨h.names_nodup, by simp, ?_⟩
    rintro a ha b hb rfl
    simp only [columnOf, List.map_cons, List.map_nil, List.mem_singleton] at hb
    exact hn (hb ▸ ha)
  names_valid := by
    intro c hc
    rcases List.mem_append.1 hc with hc | hc
    · exact h.names_valid c hc
    · rw [List.mem_singleton.1 hc]
      exact hv
  types := by
    intro c hc
    rcases List.mem_append.1 hc with hc | hc
    · exact h.types c hc
    · rw [List.mem_singleton.1 hc]
      intro he
      exact Text.lower_ne_nil ht (by simpa [columnOf] using congrArg String.toList he)
  plain := by
    intro c hc
    rcases List.mem_append.1 hc with hc | hc
    · exact h.plain c hc
    · rw [List.mem_singleton.1 hc]
      exact ⟨rfl, rfl⟩

theorem fresh_add (hb : Fresh b.columns)
    (h : b.add piece = .ok b') : Fresh b'.columns := by
  obtain ⟨k, -, rfl⟩ | ⟨k, target, -, rfl⟩ | ⟨reason, rfl⟩ | ⟨d, inlined, len, hd, -, hv, hn, rfl⟩ :=
    add_eq_ok h
  · exact hb
  · exact hb
  · exact hb
  · obtain ⟨r, t, u, -, -, ht, -⟩ := definition?_eq_some (Piece.ofText_eq_column.1 hd).2.1
    exact hb.append_columnOf (run_ne_nil ht) hv hn

/-- However a body is written, the columns read from it obey the law. -/
theorem fresh_ofPieces {pieces : List (List Char)} {b : Body} (h : ofPieces pieces = .ok b) :
    Fresh b.columns :=
  foldlM_keeps (P := fun b : Body => Fresh b.columns) (fun _ _ _ _ hb ha => fresh_add hb ha)
    fresh_empty h

theorem Fresh.keyed {cs : List (Column String)} (h : Fresh cs) (p : Option String) :
    Column.Keyed (PrimaryKey.normalise p cs) :=
  PrimaryKey.keyed_normalise h.names_nodup h.names_valid h.types

end Body

theorem readTable_eq_ok {id name : String} {body : List Char} {p : Pending}
    {skipped : List Fragment} (h : readTable id name body = .ok (p, skipped)) :
    ∃ b, Body.ofPieces (pieces body) = .ok b ∧
      p = ⟨⟨id, name, "", PrimaryKey.normalise b.primaryKey b.columns⟩, b.foreignKeys⟩ ∧
      skipped = b.skipped ++ b.missingColumns name := by
  obtain ⟨b, hb, h⟩ := bind_eq_ok.1 h
  cases h
  exact ⟨b, hb, rfl, rfl⟩

end SchemaDesign.Ddl
