import SchemaDesign.Document.Decode
import SchemaDesign.Proofs.Api.Validation
import SchemaDesign.Proofs.Result

/-! A table that is written is read again as it was, but for notes and parts of references that count as
missing: those come back as the empty text. What is read holds no others, so that a document is settled
once it has been read. -/
namespace SchemaDesign.Document

variable {c : Column Json} {t : Table Json} {j : Json}

/-- The empty text stands for a value that counts as missing. -/
def settlePart (j : Json) : Json := if j.isTrue then j else .str ""

def settleColumn (c : Column Json) : Column Json := { c with references := c.references.map settlePart }

def settleTable (t : Table Json) : Table Json :=
  { t with notes := settlePart t.notes, columns := t.columns.map settleColumn }

theorem settlePart_str (s : String) : settlePart (.str s) = .str s := by
  unfold settlePart
  split
  · rfl
  · next h =>
    have hs : s = "" := by simpa [Json.isTrue] using h
    rw [hs]

theorem settlePart_settlePart (j : Json) : settlePart (settlePart j) = settlePart j := by
  by_cases h : j.isTrue = true
  · have hj : settlePart j = j := if_pos h
    rw [hj, hj]
  · have hj : settlePart j = .str "" := if_neg h
    rw [hj, settlePart_str]

theorem readPart_eq (j : Json) (key : String) : readPart j key = settlePart (j.field key .null) := rfl

/-! What is written -/

theorem readReference_writeReference (r : Reference Json) :
    readReference (writeReference r) = .ok (r.map settlePart) := rfl

theorem readLength_writeOption (l : Option Int) : readLength (writeOption .int l) = .ok l := by
  cases l with
  | none => rfl
  | some n => rfl

theorem readColumn_writeColumn (c : Column Json) :
    readColumn (writeColumn c) = .ok (settleColumn c) := by
  have hlength : (writeColumn c).field "typeLength" .null = writeOption .int c.typeLength := rfl
  have hreferences : (writeColumn c).field "references" .null = writeReference c.references := rfl
  unfold readColumn
  rw [hlength, hreferences, readLength_writeOption, readReference_writeReference]
  rfl

theorem readTable_writeTable (t : Table Json) : readTable (writeTable t) = .ok (settleTable t) := by
  have hcolumns : readColumns (.arr (t.columns.map writeColumn)) = .ok (t.columns.map settleColumn) :=
    mapM_map_ok readColumn_writeColumn t.columns
  have hfield : (writeTable t).field "columns" (.arr []) = .arr (t.columns.map writeColumn) := rfl
  unfold readTable
  rw [hfield, hcolumns]
  rfl

/-! What is read -/

theorem settle_reference {r : Reference Json} (h : readReference j = .ok r) : r.map settlePart = r := by
  unfold readReference at h
  split at h
  · cases h
    rfl
  · split at h
    · cases h
      rw [Reference.map, readPart_eq, readPart_eq, settlePart_settlePart, settlePart_settlePart]
    · cases h

theorem settle_column (h : readColumn j = .ok c) : settleColumn c = c := by
  unfold readColumn at h
  split at h
  · cases h
  · obtain ⟨l, -, h⟩ := bind_eq_ok.1 h
    obtain ⟨r, hr, h⟩ := bind_eq_ok.1 h
    cases h
    rw [settleColumn, settle_reference hr]

theorem settle_columns {cs : List (Column Json)} (h : readColumns j = .ok cs) :
    cs.map settleColumn = cs := by
  have hsettled : ∀ c ∈ cs, settleColumn c = c := by
    unfold readColumns readItems at h
    split at h
    · exact mapM_keeps (fun _ _ => settle_column) h
    · split at h <;> cases h
      simp
    · split at h <;> cases h
      simp
    · cases h
  exact (List.map_congr_left hsettled).trans (List.map_id cs)

theorem settle_table (h : readTable j = .ok t) : settleTable t = t := by
  unfold readTable at h
  split at h
  · cases h
  · obtain ⟨cs, hcs, h⟩ := bind_eq_ok.1 h
    cases h
    rw [settleTable, settle_columns hcs, readPart_eq, settlePart_settlePart]

/-! Texts -/

theorem settleColumn_map (c : Column String) : settleColumn (c.map .str) = c.map .str := by
  simp only [settleColumn, Column.map, Reference.map, settlePart_str]

theorem settleTable_map (t : Table String) : settleTable (t.map .str) = t.map .str := by
  simp only [settleTable, Table.map, settlePart_str, List.map_map, Function.comp_def, settleColumn_map]

theorem primaryKey_map (t : Table String) : (t.map Json.str).primaryKey = t.primaryKey.map .str := by
  unfold Table.primaryKey
  show ((t.columns.map (·.map Json.str)).find? (·.primaryKey)).bind _ = _
  rw [List.find?_map]
  have hflag : (fun c : Column Json => c.primaryKey) ∘ (·.map Json.str) =
    fun c : Column String => c.primaryKey := rfl
  rw [hflag]
  cases t.columns.find? (·.primaryKey) <;> rfl

/-- Columns and tables of texts come back as they were, a column also by way of its model if the validators
are exact, and a table that was read from any document comes back as it was read. -/
theorem read_write :
    (∀ c : Column String, readColumn (writeColumn (c.map .str)) = .ok (c.map .str) ∧
      ∀ (v : Api.Validators), v.Exact → ∀ place,
        ∃ model, Api.columnModel v place (writeColumn (c.map .str)) = .ok model ∧
          readColumn (v.dump model) = .ok (c.map .str)) ∧
    (∀ t : Table String, readTable (writeTable (t.map .str)) = .ok (t.map .str) ∧
      (t.map Json.str).primaryKey = t.primaryKey.map .str) ∧
    ∀ d t, readTable d = .ok t → readTable (writeTable t) = .ok t := by
  have hcolumn : ∀ c : Column String, readColumn (writeColumn (c.map .str)) = .ok (c.map .str) := by
    intro c
    rw [readColumn_writeColumn, settleColumn_map]
  refine ⟨fun c => ⟨hcolumn c, fun v hv place => ⟨c, hv.read_column place c, ?_⟩⟩,
    fun t => ⟨?_, primaryKey_map t⟩, fun d t h => ?_⟩
  · rw [hv.dump]
    exact hcolumn c
  · rw [readTable_writeTable, settleTable_map]
  · rw [readTable_writeTable, settle_table h]

/-- A document with values of the wrong kinds. -/
def looseDocument : Json :=
  .obj [("id", .int 7), ("notes", .bool false), ("columns", .arr [
    .obj [("typeLength", .bool true), ("nullable", .int 0), ("unique", .str "no"),
      ("references", .obj [("tableId", .arr []), ("columnName", .null)])],
    .obj [("name", .null), ("references", .obj [("tableId", .int 7)])]])]

def looseTable : Table Json where
  id := .int 7
  name := .str ""
  notes := .str ""
  columns := [
    ⟨.str "", .str "", some 1, false, true, false, false, Reference.unset⟩,
    ⟨.null, .str "", none, true, false, false, false, ⟨.int 7, .str ""⟩⟩]

/-- A foreign key with a length, of which nothing is a default. -/
def fullColumn : Column String := ⟨"owner", "varchar", some 40, false, true, true, true, ⟨"users", "id"⟩⟩

theorem read_write_looseTable :
    readTable looseDocument = .ok looseTable ∧ readTable (writeTable looseTable) = .ok looseTable ∧
    Api.standardValidators.Exact ∧
    ∃ model, Api.columnModel Api.standardValidators [] (writeColumn (fullColumn.map .str)) = .ok model ∧
      readColumn (Api.standardValidators.dump model) = .ok (fullColumn.map .str) := by
  have hread : readTable looseDocument = .ok looseTable := rfl
  exact ⟨hread, read_write.2.2 looseDocument looseTable hread, Api.exact_standardValidators,
    (read_write.1 fullColumn).2 Api.standardValidators Api.exact_standardValidators []⟩

end SchemaDesign.Document
