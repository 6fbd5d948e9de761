import SchemaDesign.Proofs.Assoc
import SchemaDesign.Proofs.Ddl.Body
import SchemaDesign.Proofs.Sql.ClauseLine
import SchemaDesign.Proofs.Sql.ColumnLine

/-! Reading the lines of one statement: its columns in order, its primary key, and a foreign key for
each reference that resolves. -/
namespace SchemaDesign.Export.Sql
open Ddl Text

/-- The key clauses of a table name words. -/
structure Worded (ts : List (Table String)) (t : Table String) : Prop where
  key : ∀ k ∈ t.primaryKey, Word k.toList
  links : ∀ c ∈ t.columns, (c.target? ts).isSome = true → Word c.name.toList

/-- Each line of a table is read as what it stands for. -/
structure Faithful (ts : List (Table String)) (t : Table String) : Prop extends Worded ts t where
  columns : ∀ c ∈ t.columns, c.looksLikeClause = false
  types : ∀ c ∈ t.columns, ∀ ch ∈ c.type.toList, isLetter ch = true

instance (ts : List (Table String)) (t : Table String) : Decidable (Faithful ts t) :=
  decidable_of_iff ((_ ∧ _) ∧ _ ∧ _)
    ⟨fun ⟨⟨hk, hl⟩, hc, ht⟩ => ⟨⟨hk, hl⟩, hc, ht⟩, fun h => ⟨⟨h.key, h.links⟩, h.columns, h.types⟩⟩

variable {ts : List (Table String)} {t : Table String} {b : Body}

theorem add_columnLine {c : Column String} (h : c.Printable)
    (hv : Validation.isValidName c.name = true) (ht : ∀ ch ∈ c.type.toList, isLetter ch = true)
    (hl : c.looksLikeClause = false) (hnew : c.name ∉ b.columns.map (·.name)) :
    b.add (columnLine c) =
      .ok (b.withColumn (definitionOf c) c.length? (inlineTarget? false (columnLine c))) := by
  have hpiece : Piece.ofText (columnLine c) =
      .column (definitionOf c) (inlineTarget? false (columnLine c)) :=
    Piece.ofText_eq_column.2
      ⟨(isTableClause_columnLine h ht).trans hl, definition?_of_letters h ht, rfl⟩
  have hname : String.ofList (definitionOf c).name = c.name := String.ofList_toList
  have hfresh : b.columns.any (·.name == c.name) = false := by simpa using hnew
  unfold Body.add
  rw [hpiece]
  simp only [Body.addColumn, hname, hv, hfresh, typeLength_definitionOf h, Bool.not_true,
    Bool.false_eq_true, if_false, Body.withColumn]
  rfl

/-- A foreign key that names a number cannot resolve. -/
def NamesNumber (target : Target) : Prop := ∃ k, target.column = String.ofList (decimal k)

theorem mem_withColumn {c : Column String} (h : c.Printable) {e : String × Target}
    (he : e ∈ (b.withColumn (definitionOf c) c.length?
      (inlineTarget? false (columnLine c))).foreignKeys) :
    e ∈ b.foreignKeys ∨ e.1 = c.name ∧ NamesNumber e.2 := by
  unfold Body.withColumn at he
  cases hi : inlineTarget? false (columnLine c) with
  | none =>
    rw [hi] at he
    exact .inl he
  | some target =>
    rw [hi] at he
    rcases Assoc.mem_putNew he with rfl | he
    · exact .inr ⟨String.ofList_toList, inlineTarget?_columnLine h hi⟩
    · exact .inl he

theorem foldlM_columnLines (cs : List (Column String))
    (h : ∀ c ∈ cs, c.Printable ∧ Validation.isValidName c.name = true ∧
      (∀ ch ∈ c.type.toList, isLetter ch = true) ∧ c.looksLikeClause = false)
    (hn : (b.columns.map (·.name) ++ cs.map (·.name)).Nodup) :
    ∃ links, (cs.map columnLine).foldlM Body.add b =
        .ok { b with columns := b.columns ++ cs.map readBack, foreignKeys := links } ∧
      ∀ e ∈ links, e ∈ b.foreignKeys ∨ e.1 ∈ cs.map (·.name) ∧ NamesNumber e.2 := by
  induction cs generalizing b with
  | nil => exact ⟨b.foreignKeys, by simp [pure, Except.pure], fun e he => .inl he⟩
  | cons c cs ih =>
    obtain ⟨hp, hv, ht, hl⟩ := h c List.mem_cons_self
    have hnew : c.name ∉ b.columns.map (·.name) := fun hmem =>
      (List.nodup_append.1 hn).2.2 c.name hmem c.name List.mem_cons_self rfl
    have hstep := add_columnLine hp hv ht hl hnew
    have hcolumns : (b.withColumn (definitionOf c) c.length? (inlineTarget? false (columnLine c))).columns =
        b.columns ++ [readBack c] := by
      rw [← columnOf_definitionOf hp]
      rfl
    obtain ⟨links, hfold, hlinks⟩ := ih
      (b := b.withColumn (definitionOf c) c.length? (inlineTarget? false (columnLine c)))
      (fun d hd => h d (List.mem_cons_of_mem _ hd))
      (by simpa [hcolumns, readBack] using hn)
    refine ⟨links, ?_, fun e he => ?_⟩
    · rw [List.map_cons, List.foldlM_cons, hstep]
      show List.foldlM Body.add _ _ = _
      rw [hfold, hcolumns, List.append_assoc]
      rfl
    · rcases hlinks e he with he | ⟨hname, hnum⟩
      · exact (mem_withColumn hp he).imp_right fun ⟨hname, hnum⟩ => ⟨hname ▸ List.mem_cons_self, hnum⟩
      · exact .inr ⟨List.mem_cons_of_mem _ hname, hnum⟩

/-- The foreign key of a column that resolves. -/
def putLink (ts : List (Table String)) (links : List (String × Target)) (c : Column String) :
    List (String × Target) :=
  match c.target? ts with
  | some d => Assoc.put c.name ⟨d.name, c.references.columnName⟩ links
  | none => links

theorem foldlM_linkLines (cs : List (Column String))
    (h : ∀ c ∈ cs, ∀ d, c.target? ts = some d →
      Word c.name.toList ∧ Word d.name.toList ∧ Word c.references.columnName.toList) :
    (cs.filterMap (linkLine? ts)).foldlM Body.add b =
      .ok { b with foreignKeys := cs.foldl (putLink ts) b.foreignKeys } := by
  induction cs generalizing b with
  | nil => rfl
  | cons c cs ih =>
    have ih := fun b => ih (b := b) fun d hd => h d (List.mem_cons_of_mem _ hd)
    rw [List.filterMap_cons, linkLine?]
    cases hd : c.target? ts with
    | none =>
      have hput : putLink ts b.foreignKeys c = b.foreignKeys := by rw [putLink, hd]
      rw [List.foldl_cons, hput]
      exact ih b
    | some d =>
      obtain ⟨hc, ht, hr⟩ := h c List.mem_cons_self d hd
      have hadd : b.add (linkLine c.name.toList d.name.toList c.references.columnName.toList) =
          .ok { b with foreignKeys := putLink ts b.foreignKeys c } := by
        unfold Body.add
        rw [ofText_linkLine hc ht hr, putLink, hd]
        simp only [String.ofList_toList]
      rw [Option.map_some, List.foldlM_cons, hadd, List.foldl_cons]
      exact ih { b with foreignKeys := putLink ts b.foreignKeys c }

theorem mem_foldl_putLink {cs : List (Column String)} {links : List (String × Target)}
    {e : String × Target} (h : e ∈ cs.foldl (putLink ts) links) :
    e ∈ links ∨ e.1 ∈ cs.map (·.name) := by
  induction cs generalizing links with
  | nil => exact .inl h
  | cons c cs ih =>
    rcases ih h with he | he
    · unfold putLink at he
      split at he
      · rcases Assoc.mem_put he with rfl | he
        · exact .inr List.mem_cons_self
        · exact .inl he
      · exact .inl he
    · exact .inr (List.mem_cons_of_mem _ he)

theorem get?_putLink_of_ne {c : Column String} {name : String} (h : c.name ≠ name)
    (links : List (String × Target)) :
    Assoc.get? name (putLink ts links c) = Assoc.get? name links := by
  unfold putLink
  split
  · exact Assoc.get?_put_of_ne h.symm _ _
  · rfl

theorem get?_foldl_putLink_of_not_mem {cs : List (Column String)} {name : String}
    (h : name ∉ cs.map (·.name)) (links : List (String × Target)) :
    Assoc.get? name (cs.foldl (putLink ts) links) = Assoc.get? name links := by
  induction cs generalizing links with
  | nil => rfl
  | cons c cs ih =>
    rw [List.map_cons, List.mem_cons, not_or] at h
    rw [List.foldl_cons, ih h.2, get?_putLink_of_ne (Ne.symm h.1)]

/-- Each column has its own foreign key, or what it had before. -/
theorem get?_foldl_putLink {cs : List (Column String)} (hn : (cs.map (·.name)).Nodup)
    {c : Column String} (hc : c ∈ cs) (links : List (String × Target)) :
    Assoc.get? c.name (cs.foldl (putLink ts) links) =
      match c.target? ts with
      | some d => some ⟨d.name, c.references.columnName⟩
      | none => Assoc.get? c.name links := by
  induction cs generalizing links with
  | nil => cases hc
  | cons d cs ih =>
    rw [List.map_cons, List.nodup_cons] at hn
    rw [List.foldl_cons]
    rcases List.mem_cons.1 hc with rfl | hc
    · rw [get?_foldl_putLink_of_not_mem hn.1, putLink]
      cases c.target? ts with
      | none => rfl
      | some e => exact Assoc.get?_put_self _ _ _
    · have hne : d.name ≠ c.name := fun he => hn.1 (he ▸ List.mem_map_of_mem hc)
      rw [ih hn.2 hc, get?_putLink_of_ne hne]

theorem Printable.nodup_names (h : Printable ts) (ht : t ∈ ts) : (t.columns.map (·.name)).Nodup :=
  (h.keyed t ht).names_nodup

/-- What is read from the lines of a table: its columns, its key, a foreign key for each reference
that resolves, and else at most foreign keys that name a number. -/
theorem ofPieces_lines (h : Printable ts) (ht : t ∈ ts) (hf : Faithful ts t) :
    ∃ links, Body.ofPieces (lines ts t) = .ok ⟨t.columns.map readBack, t.primaryKey, links, []⟩ ∧
      (∀ e ∈ links, e.1 ∈ t.columnNames) ∧
      ∀ c ∈ t.columns,
        (∀ d, c.target? ts = some d →
          Assoc.get? c.name links = some ⟨d.name, c.references.columnName⟩) ∧
        (c.target? ts = none → ∀ target, Assoc.get? c.name links = some target →
          NamesNumber target) := by
  obtain ⟨found, hcolumns, hfound⟩ := foldlM_columnLines (b := Body.empty) t.columns
    (fun c hc => ⟨h.columns t ht c hc, (h.keyed t ht).names_valid c hc, hf.types c hc,
      hf.columns c hc⟩)
    (by simpa [Body.empty] using h.nodup_names ht)
  have hkey : (keyLines t).foldlM Body.add ⟨t.columns.map readBack, none, found, []⟩ =
      .ok ⟨t.columns.map readBack, t.primaryKey, found, []⟩ := by
    rw [h.keyLines_eq ht]
    cases hk : t.primaryKey with
    | none => rfl
    | some k =>
      have hadd : Body.add ⟨t.columns.map readBack, none, found, []⟩ (keyLine k.toList) =
          .ok ⟨t.columns.map readBack, some k, found, []⟩ := by
        unfold Body.add
        rw [ofText_keyLine (hf.key k hk)]
        simp only [String.ofList_toList]
      rw [Option.toList_some, List.map_singleton, List.foldlM_cons, hadd]
      rfl
  have hlinks := foldlM_linkLines (b := ⟨t.columns.map readBack, t.primaryKey, found, []⟩) t.columns
    fun c hc d hd =>
      ⟨hf.links c hc (by rw [hd]; rfl), h.names d (Column.target?_eq_some hd).2.1,
        (h.targets t ht c hc d hd).2⟩
  refine ⟨t.columns.foldl (putLink ts) found, ?_, fun e he => ?_, fun c hc => ⟨fun d hd => ?_, ?_⟩⟩
  · unfold Body.ofPieces lines
    rw [List.foldlM_append, List.foldlM_append, hcolumns]
    show (List.foldlM Body.add ⟨t.columns.map readBack, none, found, []⟩ (keyLines t) >>=
      fun b => List.foldlM Body.add b (t.columns.filterMap (linkLine? ts))) = _
    rw [hkey]
    exact hlinks
  · rcases mem_foldl_putLink he with he | he
    · rcases hfound e he with he | ⟨hname, -⟩
      · cases he
      · exact hname
    · exact he
  · rw [get?_foldl_putLink (h.nodup_names ht) hc, hd]
  · intro hd target hget
    rw [get?_foldl_putLink (h.nodup_names ht) hc, hd] at hget
    rcases hfound _ (Assoc.mem_of_get? hget) with he | ⟨-, hnum⟩
    · cases he
    · exact hnum

end SchemaDesign.Export.Sql
