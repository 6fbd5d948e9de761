import Mathlib.Data.List.Forall2
import SchemaDesign.Ddl.Report
import SchemaDesign.Proofs.Ddl.Body
import SchemaDesign.Proofs.Model.Reference
import SchemaDesign.Proofs.Model.TableId

/-! What reading a text gives: a table for each statement under the first id to come, keyed columns, and
references that lead to a column of the same text or are empty. -/
namespace SchemaDesign.Ddl

/-- A pending table comes from the body of a statement. -/
structure Pending.ReadFrom (p : Pending) (id : String) (statement : List Char × List Char)
    (b : Body) : Prop where
  pieces : Body.ofPieces (pieces statement.2) = .ok b
  table : p.table = ⟨id, String.ofList statement.1, "", PrimaryKey.normalise b.primaryKey b.columns⟩
  foreignKeys : p.foreignKeys = b.foreignKeys

theorem readStatements_eq_ok {ids : TableId.Supply} {sts : List (List Char × List Char)} {ps : List Pending}
    {skipped : List Fragment} (h : readStatements ids sts = .ok (ps, skipped)) :
    ps.map (·.table.id) = ids.take sts.length ∧
      List.Forall₂ (fun st p => ∃ b, p.ReadFrom p.table.id st b) sts ps := by
  induction sts generalizing ids ps skipped with
  | nil => cases h; exact ⟨rfl, .nil⟩
  | cons st sts ih =>
    obtain ⟨⟨p, inBody⟩, hp, h⟩ := bind_eq_ok.1 h
    obtain ⟨⟨rest, sk⟩, hr, h⟩ := bind_eq_ok.1 h
    cases h
    obtain ⟨b, hb, rfl, -⟩ := readTable_eq_ok (mapError_eq_ok.1 hp)
    obtain ⟨hids, hall⟩ := ih (mapError_eq_ok.1 hr)
    exact ⟨by simp [TableId.Supply.take_succ, hids], .cons ⟨b, hb, rfl, rfl⟩ hall⟩

theorem exists_readFrom {sts : List (List Char × List Char)} {ps : List Pending}
    (h : List.Forall₂ (fun st p => ∃ b, p.ReadFrom p.table.id st b) sts ps) {p : Pending}
    (hp : p ∈ ps) : ∃ st ∈ sts, ∃ b, p.ReadFrom p.table.id st b := by
  obtain ⟨i, hi, rfl⟩ := List.getElem_of_mem hp
  have hi' : i < sts.length := h.length_eq ▸ hi
  exact ⟨sts[i], List.getElem_mem hi', h.get hi' hi⟩

/-- The text without its comments. -/
def source (text : String) : List Char := withoutComments text.toList

/-- An empty text is no special case. -/
theorem read_eq (ids : TableId.Supply) (text : String) :
    read ids text = (do
      let (batch, skipped) ← readStatements ids (statements (source text))
      return ⟨batch.map (resolveTable batch), skippedStatements (source text) ++ skipped,
        batch.flatMap (unresolvedIn batch)⟩) := by
  unfold read
  split
  · next h =>
    have h : text = "" := by simpa using h
    subst h
    have hs : segments (source "") = [.between []] := by
      have : source "" = [] := by simp [source, withoutComments, withoutBlocks, withoutLineComments]
      rw [this, segments]
      rfl
    simp only [statements, skippedStatements, hs]
    rfl
  · rfl

theorem read_eq_ok {ids : TableId.Supply} {text : String} {r : Report} (h : read ids text = .ok r) :
    ∃ batch skipped, readStatements ids (statements (source text)) = .ok (batch, skipped) ∧
      r.tables = batch.map (resolveTable batch) ∧
      r.skipped = skippedStatements (source text) ++ skipped := by
  rw [read_eq] at h
  obtain ⟨⟨batch, skipped⟩, hb, h⟩ := bind_eq_ok.1 h
  cases h
  exact ⟨batch, skipped, hb, rfl, rfl⟩

@[simp] theorem resolveTable_name (batch : List Pending) (p : Pending) :
    (resolveTable batch p).name = p.table.name := rfl

/-- Resolving changes nothing of a column but its reference. -/
theorem resolveColumn_eq (batch : List Pending) (p : Pending) (c : Column String) :
    resolveColumn batch p c =
      { c with
        foreignKey := (resolveColumn batch p c).foreignKey
        references := (resolveColumn batch p c).references } := by
  unfold resolveColumn
  split <;> rfl

@[simp] theorem resolveColumn_name (batch : List Pending) (p : Pending) (c : Column String) :
    (resolveColumn batch p c).name = c.name := by rw [resolveColumn_eq]

theorem resolveTable_columnNames (batch : List Pending) (p : Pending) :
    (resolveTable batch p).columnNames = p.table.columnNames := by
  simp [resolveTable, Table.columnNames, Function.comp_def]

/-- The names of columns are those of the body. -/
theorem Pending.ReadFrom.names {p : Pending} {id : String} {st : List Char × List Char} {b : Body}
    (h : p.ReadFrom id st b) (batch : List Pending) :
    (resolveTable batch p).columns.map (·.name.toList) = b.columns.map (·.name.toList) := by
  have htable : p.table.columnNames = b.columns.map (·.name) := by
    rw [h.table]
    exact PrimaryKey.map_name_normalise
  have hnames := congrArg (List.map String.toList) ((resolveTable_columnNames batch p).trans htable)
  simpa only [Table.columnNames, List.map_map, Function.comp_def] using hnames

/-- Before references are resolved no column holds one. -/
theorem Pending.ReadFrom.plain {p : Pending} {id : String} {st : List Char × List Char} {b : Body}
    (h : p.ReadFrom id st b) : ∀ c ∈ p.table.columns,
      c.foreignKey = false ∧ c.references = Reference.unset := by
  have hcolumns : p.table.columns = PrimaryKey.normalise b.primaryKey b.columns := by rw [h.table]
  rw [hcolumns, PrimaryKey.normalise_eq_map, List.forall_mem_map]
  intro c hc
  rw [PrimaryKey.mark_foreignKey, PrimaryKey.mark_references]
  exact (Body.fresh_ofPieces h.pieces).plain c hc

/-- A target stands for a column of the first table of its name. -/
theorem resolve?_eq_some {batch : List Pending} {target : Target} {r : Reference String} :
    resolve? batch target = some r ↔
      ∃ p, batch.find? (·.table.name == target.table) = some p ∧
        target.column ∈ p.table.columnNames ∧ r = ⟨p.table.id, target.column⟩ := by
  unfold resolve?
  rw [Option.bind_eq_some_iff]
  refine exists_congr fun p => and_congr_right fun _ => ?_
  rw [← Table.column?_isSome]
  split
  · next h => simp [h, eq_comm]
  · next h => simp [h]

/-- A column stays as it is, is left without a reference, or is led to a column of the first table
of a name. -/
theorem resolveColumn_cases (batch : List Pending) (p : Pending) (c : Column String) :
    resolveColumn batch p c = c ∨ (resolveColumn batch p c).references = Reference.unset ∨
      ∃ target q, Assoc.get? c.name p.foreignKeys = some target ∧
        batch.find? (·.table.name == target.table) = some q ∧ target.column ∈ q.table.columnNames ∧
        (resolveColumn batch p c).foreignKey = true ∧
        (resolveColumn batch p c).references = ⟨q.table.id, target.column⟩ := by
  unfold resolveColumn
  cases hget : Assoc.get? c.name p.foreignKeys with
  | none => exact .inl rfl
  | some target =>
    cases hres : resolve? batch target with
    | none => exact .inr (.inl (by simp only [hres, Option.getD_none]))
    | some ref =>
      obtain ⟨q, hq, hcol, rfl⟩ := resolve?_eq_some.1 hres
      exact .inr (.inr ⟨target, q, rfl, hq, hcol, rfl, by simp only [hres, Option.getD_some]⟩)

variable {ids : TableId.Supply} {text : String} {r : Report}

/-- The tables of a text take the first ids to come. -/
theorem read_ids (h : read ids text = .ok r) :
    r.tables.map (·.id) = ids.take r.tables.length := by
  obtain ⟨batch, skipped, hb, hr, -⟩ := read_eq_ok h
  obtain ⟨hids, hall⟩ := readStatements_eq_ok hb
  rw [hr, List.map_map, List.length_map, ← hall.length_eq, ← hids]
  rfl

theorem read_ids_nodup (h : read ids text = .ok r) : (r.tables.map (·.id)).Nodup := by
  rw [read_ids h]
  exact ids.nodup_take _

theorem read_id_ne_empty {t : Table String} (h : read ids text = .ok r) (ht : t ∈ r.tables) :
    t.id ≠ "" := by
  have hid : t.id ∈ r.tables.map (·.id) := List.mem_map_of_mem ht
  rw [read_ids h] at hid
  exact (TableId.Supply.given_of_mem_take hid).ne_empty

/-- A table that is read stands for a pending table, which comes from a body. -/
theorem mem_read {t : Table String} (h : read ids text = .ok r) (ht : t ∈ r.tables) :
    ∃ batch p st b, r.tables = batch.map (resolveTable batch) ∧ p ∈ batch ∧ t = resolveTable batch p ∧
      st ∈ statements (source text) ∧ p.ReadFrom p.table.id st b := by
  obtain ⟨batch, skipped, hb, hr, -⟩ := read_eq_ok h
  obtain ⟨-, hall⟩ := readStatements_eq_ok hb
  rw [hr] at ht
  obtain ⟨p, hp, rfl⟩ := List.mem_map.1 ht
  obtain ⟨st, hst, b, hrf⟩ := exists_readFrom hall hp
  exact ⟨batch, p, st, b, hr, hp, rfl, hst, hrf⟩

theorem read_keyed {t : Table String} (h : read ids text = .ok r) (ht : t ∈ r.tables) :
    Column.Keyed t.columns := by
  obtain ⟨batch, p, st, b, -, -, rfl, -, hrf⟩ := mem_read h ht
  have hk := (Body.fresh_ofPieces hrf.pieces).keyed b.primaryKey
  have hp : p.table.columns = PrimaryKey.normalise b.primaryKey b.columns := by rw [hrf.table]
  rw [← hp] at hk
  exact hk.map (resolveColumn_name batch p)
    (fun c => by rw [resolveColumn_eq]) (fun c => by rw [resolveColumn_eq])
    (fun c _ hn hu => by rw [resolveColumn_eq]; exact ⟨hn, hu⟩)

/-- A column that is read holds no reference, or one to a column of a table of the same text. -/
theorem read_references {t : Table String} {c : Column String} (h : read ids text = .ok r)
    (ht : t ∈ r.tables) (hc : c ∈ t.columns) :
    c.references = Reference.unset ∨ c.foreignKey = true ∧
      ∃ u ∈ r.tables, u.id = c.references.tableId ∧ c.references.columnName ∈ u.columnNames := by
  obtain ⟨batch, p, st, b, hr, -, rfl, -, hrf⟩ := mem_read h ht
  obtain ⟨d, hd, rfl⟩ := List.mem_map.1 hc
  obtain hsame | hunset | ⟨target, q, -, hq, hcol, hf, href⟩ := resolveColumn_cases batch p d
  · left
    rw [hsame]
    exact (hrf.plain d hd).2
  · exact .inl hunset
  · refine .inr ⟨hf, resolveTable batch q, ?_, by rw [href]; rfl, ?_⟩
    · exact hr ▸ List.mem_map_of_mem (List.mem_of_find?_eq_some hq)
    · rw [resolveTable_columnNames, href]
      exact hcol

end SchemaDesign.Ddl
