import SchemaDesign.Proofs.Sql.Reread

/-! Whatever text a schema is read from, it is printable. -/
namespace SchemaDesign

/-- Only the name, the type and the length of a column matter. -/
theorem Column.Printable.congr {c c' : Column String} (h : c.Printable) (hname : c'.name = c.name)
    (htype : c'.type = c.type) (hlength : c'.typeLength = c.typeLength) : c'.Printable where
  name_ne_nil := hname ▸ h.name_ne_nil
  name_chars := hname ▸ h.name_chars
  type_head := htype ▸ h.type_head
  type_chars := htype ▸ h.type_chars
  length := by
    rw [Column.length?, hlength]
    exact h.length

namespace Ddl
open Text

theorem length_of_typeLength {d : Definition} {len : Option Int} (h : d.typeLength = .ok len) :
    ∀ n, len = some n → ∃ k : Nat, n = k ∧ (decimal k).length ≤ maxDigits := by
  intro n hn
  unfold Definition.typeLength at h
  split at h
  · split at h
    · subst hn
      obtain ⟨k, hk, he⟩ := map_eq_ok.1 h
      cases he
      obtain ⟨m, hm, hk⟩ := bind_eq_ok.1 hk
      cases hk
      exact ⟨m, rfl, length_decimal_of_readNat hm⟩
    · cases h
      cases hn
  · cases h
    cases hn

/-- Every definition gives a printable column. -/
theorem printable_columnOf {s : List Char} {d : Definition} (h : definition? s = some d)
    {len : Option Int} (hlen : d.typeLength = .ok len) : (Body.columnOf d len).Printable := by
  obtain ⟨r, t, u, hname, -, htype, -⟩ := definition?_eq_some h
  have hletters := run_all htype
  refine ⟨?_, ?_, ?_, ?_, ?_⟩
  · simpa [Body.columnOf] using run_ne_nil hname
  · simpa [Body.columnOf] using run_all hname
  · simpa [Body.columnOf] using lower_head_isLetter (run_ne_nil htype) hletters
  · simpa [Body.columnOf, lower] using lowerAfter_isTypeChar hletters []
  · intro n hn
    exact length_of_typeLength hlen n (Option.filter_eq_some_iff.1 hn).1

namespace Body

/-- The law of a body with regard to printing: printable columns, and foreign keys that name columns
by words. -/
structure Sound (b : Body) : Prop where
  columns : ∀ c ∈ b.columns, c.Printable
  targets : ∀ e ∈ b.foreignKeys, Word e.2.column.toList

theorem sound_add {b b' : Body} {piece : List Char} (hb : b.Sound) (h : b.add piece = .ok b') :
    b'.Sound := by
  obtain ⟨k, -, rfl⟩ | ⟨k, target, hk, rfl⟩ | ⟨reason, rfl⟩ |
    ⟨d, inlined, len, hd, hlen, -, -, rfl⟩ := add_eq_ok h
  · exact ⟨hb.columns, hb.targets⟩
  · refine ⟨hb.columns, fun e he => ?_⟩
    rcases Assoc.mem_put he with rfl | he
    · exact (foreignKeyClause?_word (Piece.ofText_eq_foreignKey hk)).2
    · exact hb.targets e he
  · exact ⟨hb.columns, hb.targets⟩
  · obtain ⟨-, hdef, hinline⟩ := Piece.ofText_eq_column.1 hd
    refine ⟨fun c hc => ?_, fun e he => ?_⟩
    · rcases List.mem_append.1 hc with hc | hc
      · exact hb.columns c hc
      · rw [List.mem_singleton.1 hc]
        exact printable_columnOf hdef hlen
    · unfold withColumn at he
      cases inlined with
      | none => exact hb.targets e he
      | some target =>
        rcases Assoc.mem_putNew he with rfl | he
        · obtain ⟨u, -, hu⟩ := inlineTarget?_suffix hinline.symm
          exact referencesClause?_word hu
        · exact hb.targets e he

theorem sound_ofPieces {pieces : List (List Char)} {b : Body} (h : ofPieces pieces = .ok b) : b.Sound :=
  foldlM_keeps (P := Sound) (fun _ _ _ _ hb ha => sound_add hb ha) ⟨by simp [empty], by simp [empty]⟩ h

end Body

end Ddl

namespace Export.Sql
open Ddl Text

variable {ids : TableId.Supply} {text : String} {r : Report}

theorem printable_resolved {batch : List Pending} {p : Pending} {st : List Char × List Char} {b : Body}
    (hp : p.ReadFrom p.table.id st b) : ∀ c ∈ (resolveTable batch p).columns, c.Printable := by
  have hcolumns : p.table.columns = PrimaryKey.normalise b.primaryKey b.columns := by rw [hp.table]
  unfold resolveTable
  rw [hcolumns, PrimaryKey.normalise_eq_map, List.map_map, List.forall_mem_map]
  intro c hc
  refine ((Body.sound_ofPieces hp.pieces).columns c hc).congr ?_ ?_ ?_
  · rw [Function.comp_apply, resolveColumn_name, PrimaryKey.mark_name]
  · rw [Function.comp_apply, resolveColumn_eq, PrimaryKey.mark_type]
  · rw [Function.comp_apply, resolveColumn_eq, PrimaryKey.mark_typeLength]

/-- A reference that was resolved leads to a column of the first table of a name. -/
theorem target_resolved {batch : List Pending} (hids : (batch.map (·.table.id)).Nodup) {p : Pending}
    {st : List Char × List Char} {b : Body} (hp : p.ReadFrom p.table.id st b) {c : Column String}
    (hc : c ∈ (resolveTable batch p).columns) {d : Table String}
    (hd : c.target? (batch.map (resolveTable batch)) = some d) :
    (batch.map (resolveTable batch)).find? (·.name == d.name) = some d ∧
      Word c.references.columnName.toList := by
  have hcolumns : p.table.columns = PrimaryKey.normalise b.primaryKey b.columns := by rw [hp.table]
  obtain ⟨hf, hdmem, hdid, -⟩ := Column.target?_eq_some hd
  obtain ⟨e, he, rfl⟩ := List.mem_map.1 hc
  obtain hsame | hunset | ⟨target, q, hget, hq, -, -, href⟩ := resolveColumn_cases batch p e
  · rw [hcolumns, PrimaryKey.normalise_eq_map] at he
    obtain ⟨e', he', rfl⟩ := List.mem_map.1 he
    rw [hsame, PrimaryKey.mark_foreignKey, ((Body.fresh_ofPieces hp.pieces).plain e' he').1] at hf
    cases hf
  · rw [Column.target?_of_unset hunset] at hd
    cases hd
  · rw [href] at hdid ⊢
    have hmem : resolveTable batch q ∈ batch.map (resolveTable batch) :=
      List.mem_map_of_mem (List.mem_of_find?_eq_some hq)
    have hnodup : ((batch.map (resolveTable batch)).map (·.id)).Nodup := by
      rw [List.map_map]
      exact hids
    obtain rfl := Table.eq_of_id_eq hnodup hdmem hmem hdid
    have hname : q.table.name = target.table := by simpa using List.find?_some hq
    refine ⟨?_, ?_⟩
    · rw [List.find?_map, resolveTable_name, hname]
      exact congrArg (Option.map (resolveTable batch)) hq
    · rw [hp.foreignKeys] at hget
      exact (Body.sound_ofPieces hp.pieces).targets _ (Assoc.mem_of_get? hget)

/-- What is read can be printed. -/
theorem printable_read (h : read ids text = .ok r) : Printable r.tables := by
  obtain ⟨batch, skipped, hb, hr, -⟩ := read_eq_ok h
  obtain ⟨-, hall⟩ := readStatements_eq_ok hb
  have hnodup : (batch.map (·.table.id)).Nodup := by
    have hread := read_ids_nodup h
    rwa [hr, List.map_map] at hread
  have hpending : ∀ t ∈ r.tables, ∃ p st b, t = resolveTable batch p ∧
      st ∈ statements (source text) ∧ p.ReadFrom p.table.id st b := by
    intro t ht
    rw [hr] at ht
    obtain ⟨p, hp, rfl⟩ := List.mem_map.1 ht
    obtain ⟨st, hst, b, hrf⟩ := exists_readFrom hall hp
    exact ⟨p, st, b, rfl, hst, hrf⟩
  refine ⟨fun t ht => ?_, fun t ht => read_keyed h ht, fun t ht => ?_, fun t ht => ?_⟩
  · obtain ⟨p, st, b, rfl, hst, hp⟩ := hpending t ht
    rw [resolveTable_name, hp.table, String.toList_ofList]
    exact statements_word st hst
  · obtain ⟨p, st, b, rfl, -, hp⟩ := hpending t ht
    exact printable_resolved hp
  · obtain ⟨p, st, b, rfl, -, hp⟩ := hpending t ht
    rw [hr]
    exact fun c hc d hd => target_resolved hnodup hp hc hd

end Export.Sql

end SchemaDesign
