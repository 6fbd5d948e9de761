import Mathlib.Data.List.Basic
import SchemaDesign.Export.Format
import SchemaDesign.Proofs.Assoc

/-! Changes of a schema that no generated code shows: tables may get other ids and columns other
references, as long as every foreign key keeps the target that it had. -/
namespace SchemaDesign

variable {τ : Type} [BEq τ] [Label τ]

/-- A table under another id, with other references. -/
def Table.relink (newId : τ → τ) (newColumn : Column τ → Column τ) (t : Table τ) : Table τ :=
  { t with id := newId t.id, columns := t.columns.map newColumn }

omit [Label τ] in
theorem Table.withId?_relink {newId : τ → τ} (h : ∀ a b, (newId a == newId b) = (a == b))
    (newColumn : Column τ → Column τ) (ts : List (Table τ)) (i : τ) :
    Table.withId? (ts.map (Table.relink newId newColumn)) (newId i) =
      (Table.withId? ts i).map (Table.relink newId newColumn) := by
  simp [Table.withId?, List.findRev?_eq_find?_reverse, ← List.map_reverse, List.find?_map,
    Function.comp_def, Table.relink, h]

omit [Label τ] in
theorem Table.column?_relink (newId : τ → τ) {newColumn : Column τ → Column τ}
    (h : ∀ c, (newColumn c).name = c.name) (t : Table τ) (name : τ) :
    (t.relink newId newColumn).column? name = (t.column? name).map newColumn := by
  have hnamed : (fun c => c.name == name) ∘ newColumn = fun c => c.name == name :=
    funext fun c => congrArg (· == name) (h c)
  simp only [Table.column?, Table.relink, List.find?_map, hnamed]

/-- A column that names the same column, of a table by its new id, finds what the old target has
become. -/
theorem Column.target?_relink {newId : τ → τ} {newColumn : Column τ → Column τ}
    (hid : ∀ a b, (newId a == newId b) = (a == b)) (hname : ∀ c, (newColumn c).name = c.name)
    {c c' : Column τ} (hkey : c'.foreignKey = c.foreignKey)
    (hset : c'.references.isSet = c.references.isSet)
    (htable : c'.references.tableId = newId c.references.tableId)
    (hcolumn : c'.references.columnName = c.references.columnName) (ts : List (Table τ)) :
    c'.target? (ts.map (Table.relink newId newColumn)) =
      (c.target? ts).map (Table.relink newId newColumn) := by
  unfold Column.target?
  rw [hkey, hset, htable, hcolumn]
  split
  · rw [Table.withId?_relink hid, Option.filter_map]
    simp only [Function.comp_def, Table.column?_relink newId hname, Option.isSome_map]
  · rfl

/-- Other ids, of which no two fall together, and other references. Each column resolves as it did,
to the table that its old target has become, and names the same column of it. -/
structure Relinking (ts : List (Table τ)) where
  newId : τ → τ
  newColumn : Column τ → Column τ
  newId_beq : ∀ a b, (newId a == newId b) = (a == b)
  newColumn_eq : ∀ c, newColumn c =
    { c with foreignKey := (newColumn c).foreignKey, references := (newColumn c).references }
  target?_eq : ∀ c, (newColumn c).target? (ts.map (Table.relink newId newColumn)) =
    (c.target? ts).map (Table.relink newId newColumn)
  columnName_eq : ∀ c d, c.target? ts = some d →
    (newColumn c).references.columnName = c.references.columnName

namespace Relinking

variable {ts : List (Table τ)} (r : Relinking ts)

def table (t : Table τ) : Table τ := t.relink r.newId r.newColumn

/-- The schema after the change. -/
def tables : List (Table τ) := ts.map r.table

theorem map_tables {β : Type} {f g : Table τ → β} (h : ∀ t, f (r.table t) = g t) :
    r.tables.map f = ts.map g := by
  simp [tables, h]

theorem map_columns {β : Type} {f g : Column τ → β} (h : ∀ c, f (r.newColumn c) = g c) (t : Table τ) :
    (r.table t).columns.map f = t.columns.map g := by
  simp [table, Table.relink, h]

theorem filterMap_columns {β : Type} {f g : Column τ → Option β} (h : ∀ c, f (r.newColumn c) = g c)
    (t : Table τ) : (r.table t).columns.filterMap f = t.columns.filterMap g :=
  (List.filterMap_map ..).trans (congrArg (List.filterMap · t.columns) (funext h))

theorem flatMap_columns {β : Type} {f g : Column τ → List β} (h : ∀ c, f (r.newColumn c) = g c)
    (t : Table τ) : (r.table t).columns.flatMap f = t.columns.flatMap g :=
  (List.flatMap_map ..).trans (congrArg (List.flatMap · t.columns) (funext h))

@[simp] theorem table_name (t : Table τ) : (r.table t).name = t.name := rfl

@[simp] theorem table_notes (t : Table τ) : (r.table t).notes = t.notes := rfl

@[simp] theorem table_id_beq (t u : Table τ) : ((r.table t).id == (r.table u).id) = (t.id == u.id) :=
  r.newId_beq t.id u.id

@[simp] theorem newColumn_name (c : Column τ) : (r.newColumn c).name = c.name := by
  rw [r.newColumn_eq]

@[simp] theorem newColumn_nullable (c : Column τ) : (r.newColumn c).nullable = c.nullable := by
  rw [r.newColumn_eq]

@[simp] theorem newColumn_unique (c : Column τ) : (r.newColumn c).unique = c.unique := by
  rw [r.newColumn_eq]

@[simp] theorem newColumn_primaryKey (c : Column τ) : (r.newColumn c).primaryKey = c.primaryKey := by
  rw [r.newColumn_eq]

@[simp] theorem newColumn_baseType (c : Column τ) : (r.newColumn c).baseType = c.baseType := by
  rw [r.newColumn_eq]
  rfl

@[simp] theorem newColumn_columnType? (c : Column τ) :
    (r.newColumn c).columnType? = c.columnType? := by
  simp [Column.columnType?]

@[simp] theorem newColumn_length? (c : Column τ) : (r.newColumn c).length? = c.length? := by
  rw [r.newColumn_eq]
  rfl

@[simp] theorem newColumn_target? (c : Column τ) :
    (r.newColumn c).target? r.tables = (c.target? ts).map r.table := r.target?_eq c

@[simp] theorem table_column? (t : Table τ) (name : τ) :
    (r.table t).column? name = (t.column? name).map r.newColumn :=
  Table.column?_relink r.newId r.newColumn_name t name

@[simp] theorem table_primaryKey (t : Table τ) : (r.table t).primaryKey = t.primaryKey := by
  have hkey : Column.primaryKey ∘ r.newColumn = Column.primaryKey := funext r.newColumn_primaryKey
  simp only [table, Table.relink, Table.primaryKey, List.find?_map, hkey, Option.bind_map]
  exact congrArg _ (funext fun c => congrArg Label.chosen (r.newColumn_name c))

theorem relationTargets_table (t : Table τ) :
    (r.table t).relationTargets r.tables = (t.relationTargets ts).map (Prod.map id r.table) := by
  have hcolumns : (r.table t).columns = t.columns.map r.newColumn := rfl
  simp only [Table.relationTargets, hcolumns, List.foldl_map, newColumn_target?, newColumn_name]
  -- the list that is found so far stays the image of the old one, column by column
  refine @List.foldl_hom _ _ _ (List.map (Prod.map id r.table)) _ _ t.columns [] fun found c => ?_
  cases c.target? ts with
  | none => rfl
  | some d => exact Assoc.put_map r.table

@[simp] theorem relationFields_table (t : Table τ) :
    (r.table t).relationFields r.tables = t.relationFields ts := by
  simp only [Table.relationFields, relationTargets_table, List.map_map, List.countP_map]
  refine List.map_congr_left fun e _ => ?_
  simp [Function.comp_def]

end Relinking

namespace Export

variable {ts : List (Table τ)} (r : Relinking ts)

namespace Sql

theorem columnClause_newColumn (c : Column τ) : columnClause (r.newColumn c) = columnClause c := by
  have htype : typeClause (r.newColumn c) = typeClause c := by simp [typeClause]
  simp only [columnClause, htype, r.newColumn_name, r.newColumn_nullable, r.newColumn_unique,
    r.newColumn_primaryKey]

theorem foreignKeyClause?_newColumn (c : Column τ) :
    foreignKeyClause? r.tables (r.newColumn c) = foreignKeyClause? ts c := by
  cases h : c.target? ts with
  | none => simp [foreignKeyClause?, h]
  | some d => simp [foreignKeyClause?, h, r.columnName_eq c d h]

theorem clauses_table (t : Table τ) : clauses r.tables (r.table t) = clauses ts t := by
  simp only [clauses, primaryKeyClauses, r.table_primaryKey, r.map_columns (columnClause_newColumn r),
    r.filterMap_columns (foreignKeyClause?_newColumn r)]

theorem createTable_table (t : Table τ) : createTable r.tables (r.table t) = createTable ts t := by
  unfold createTable
  rw [clauses_table, r.table_name]

theorem generate_relinked : generate r.tables = generate ts := by
  simp only [generate, r.map_tables (createTable_table r)]

end Sql

namespace Drizzle

theorem builder_newColumn (c : Column τ) : builder (r.newColumn c) = builder c := by
  simp [builder]

theorem call_newColumn (length : Option String) (c : Column τ) :
    call length (r.newColumn c) = call length c := by
  simp [call, lengthArgument, builder_newColumn]

theorem referenceCall_newColumn (c : Column τ) :
    referenceCall r.tables (r.newColumn c) = referenceCall ts c := by
  cases h : c.target? ts with
  | none => simp [referenceCall, h]
  | some d => simp [referenceCall, h, r.columnName_eq c d h]

theorem columnLine_newColumn (length : String) (c : Column τ) :
    columnLine r.tables length (r.newColumn c) = columnLine ts length c := by
  simp [columnLine, call_newColumn, constraintCalls, referenceCall_newColumn]

theorem tableBlock_table (length : String) (t : Table τ) :
    tableBlock r.tables length (r.table t) = tableBlock ts length t := by
  simp only [tableBlock, r.table_name, r.map_columns (columnLine_newColumn r length)]

theorem usesBuilder_relinked (b : Builder) : usesBuilder r.tables b = usesBuilder ts b := by
  simp [usesBuilder, Relinking.tables, Relinking.table, Table.relink, Function.comp_def,
    builder_newColumn]

theorem generate_relinked (length : String) : generate length r.tables = generate length ts := by
  have huses : usesBuilder r.tables = usesBuilder ts := funext (usesBuilder_relinked r)
  simp only [generate, huses, r.map_tables (tableBlock_table r length)]

end Drizzle

namespace Jpa

theorem columnField_newColumn (relations : List (τ × String)) (c : Column τ) :
    columnField r.tables relations (r.newColumn c) = columnField ts relations c := by
  cases h : c.target? ts with
  | none =>
    simp [columnField, declaration, identityAnnotations, columnAnnotations, constraintAttributes,
      fieldType, h]
  | some d =>
    simp [columnField, declaration, identityAnnotations, joinAnnotation, constraintAttributes, h,
      r.columnName_eq c d h]

theorem identityField_table (t : Table τ) : identityField (r.table t) = identityField t := by
  simp [identityField, identityName]

theorem entity_table (t : Table τ) : entity r.tables (r.table t) = entity ts t := by
  simp only [entity, entityLines, identityField_table, r.table_name, r.table_notes,
    r.relationFields_table, r.flatMap_columns (columnField_newColumn r _)]
  rfl

theorem generate_relinked (package : String) : generate package r.tables = generate package ts := by
  simp only [generate, r.map_tables (entity_table r)]

end Jpa

namespace Prisma

/-- An edge between the same tables, by the same column. -/
def Edge.relink (e : Edge τ) : Edge τ := ⟨r.table e.source, r.newColumn e.column⟩

theorem edges_relinked : edges r.tables = (edges ts).map (Prod.map r.newId (Edge.relink r)) := by
  unfold edges
  rw [List.map_flatMap]
  refine (List.flatMap_map ..).trans (congrArg (List.flatMap · ts) (funext fun t => ?_))
  rw [List.map_filterMap]
  refine r.filterMap_columns (fun c => ?_) t
  rw [r.newColumn_target?]
  cases c.target? ts with
  | none => rfl
  | some d =>
    simp only [Option.map_some, r.table_id_beq]
    split <;> rfl

theorem backReferences_map (links : List (τ × Edge τ)) (id : τ) :
    backReferences (links.map (Prod.map r.newId (Edge.relink r))) (r.newId id) =
      (backReferences links id).map (Edge.relink r) := by
  have hfilter : (links.map (Prod.map r.newId (Edge.relink r))).filter (·.1 == r.newId id) =
      (links.filter (·.1 == id)).map (Prod.map r.newId (Edge.relink r)) := by
    simp [List.filter_map, Function.comp_def, r.newId_beq]
  have hfold (found : List (Edge τ)) (es : List (τ × Edge τ)) :
      (es.map (Prod.map r.newId (Edge.relink r))).foldl
        (fun found e => if found.any (·.source.id == e.2.source.id) then found else found ++ [e.2])
        (found.map (Edge.relink r)) =
      (es.foldl
        (fun found e => if found.any (·.source.id == e.2.source.id) then found else found ++ [e.2])
        found).map (Edge.relink r) := by
    induction es generalizing found with
    | nil => rfl
    | cons e es ih =>
      have hany : (found.map (Edge.relink r)).any (·.source.id == (Edge.relink r e.2).source.id) =
          found.any (·.source.id == e.2.source.id) := by
        simp [Edge.relink, Function.comp_def]
      simp only [List.map_cons, List.foldl_cons, Prod.map, hany]
      split
      · exact ih found
      · simpa using ih (found ++ [e.2])
  unfold backReferences
  rw [hfilter]
  exact hfold [] _

theorem scalarField_newColumn (c : Column τ) : scalarField (r.newColumn c) = scalarField c := by
  simp [scalarField, markers, fieldType]

theorem relationField?_newColumn (relations : List (τ × String)) (c : Column τ) :
    relationField? r.tables relations (r.newColumn c) = relationField? ts relations c := by
  cases h : c.target? ts with
  | none => simp [relationField?, h]
  | some d => simp [relationField?, h, r.columnName_eq c d h]

theorem backReferenceField_relink (e : Edge τ) :
    backReferenceField (e.relink r) = backReferenceField e := by
  simp [backReferenceField, Edge.relink]

theorem modelBlock_table (t : Table τ) :
    modelBlock r.tables (edges r.tables) (r.table t) = modelBlock ts (edges ts) t := by
  have hback : backReferences (edges r.tables) (r.table t).id =
      (backReferences (edges ts) t.id).map (Edge.relink r) := by
    rw [edges_relinked]
    exact backReferences_map r (edges ts) t.id
  have hfields : (backReferences (edges r.tables) (r.table t).id).map backReferenceField =
      (backReferences (edges ts) t.id).map backReferenceField := by
    simp [hback, Function.comp_def, backReferenceField_relink]
  simp only [modelBlock, modelLines, hfields, r.table_name, r.table_notes, r.relationFields_table,
    r.map_columns (scalarField_newColumn r), r.filterMap_columns (relationField?_newColumn r _)]
  rfl

theorem generate_relinked (provider : String) :
    generate provider r.tables = generate provider ts := by
  simp only [generate, r.map_tables (modelBlock_table r)]

end Prisma

end Export

end SchemaDesign
