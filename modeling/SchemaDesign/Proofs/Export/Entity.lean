import Mathlib.Data.List.Count
import SchemaDesign.Proofs.Export.Notes
import SchemaDesign.Proofs.Model.Relation
import SchemaDesign.Proofs.Store.References

/-! The fields of a JPA entity as data: each with its annotations, its type and its name. The lines of an
entity are an opening, the lines of its fields, the notes and a closing brace. Only fields and notes are
indented, and the first character behind the indentation tells annotations, declarations and notes apart. -/
namespace SchemaDesign.Export.Jpa

open Text

variable {ts : List (Table String)} {t : Table String} {c : Column String}

/-! Annotations of a column -/

/-- The annotations of a column apart from those of an identity. -/
def linkAnnotations (ts : List (Table String)) (c : Column String) : List String :=
  if (c.target? ts).isSome then ["@ManyToOne", joinAnnotation c] else columnAnnotations c

theorem oneLine_constraintAttributes (c : Column String) : ∀ a ∈ constraintAttributes c, OneLine a := by
  unfold constraintAttributes
  split_ifs <;> decide

theorem columnAnnotations_eq (c : Column String) :
    columnAnnotations c = [] ∨ ∃ s, OneLine s ∧ columnAnnotations c = ["@Column" ++ s] := by
  have hbreak : OneLine ", " := by decide
  unfold columnAnnotations
  split
  · exact .inl rfl
  · split
    · exact .inr ⟨"", by decide, rfl⟩
    · refine .inr ⟨"(" ++ joined ", " (constraintAttributes c) ++ ")", ?_, ?_⟩
      · simpa using ⟨⟨by decide, oneLine_joined hbreak (oneLine_constraintAttributes c)⟩, by decide⟩
      · rw [← String.append_assoc, ← String.append_assoc]
        rfl

theorem forall_linkAnnotations {p : String → Prop} (hcolumn : ∀ s, OneLine s → p ("@Column" ++ s))
    (hmany : p "@ManyToOne") (hjoin : (c.target? ts).isSome = true → p ( joinAnnotation c)) :
    ∀ a ∈ linkAnnotations ts c, p a := by
  unfold linkAnnotations
  split
  · next hlink => simpa using ⟨hmany, hjoin hlink⟩
  · rcases columnAnnotations_eq c with hnone | ⟨s, hs, hone⟩
    · simp [hnone]
    · simpa [hone] using hcolumn s hs

theorem linkAnnotations_at : ∀ a ∈ linkAnnotations ts c, startsWith "@" a = true :=
  forall_linkAnnotations (fun s _ => by simp [startsWith]) (by decide)
    fun _ => by unfold joinAnnotation; simp [startsWith]

theorem id_notMem_linkAnnotations : "@Id" ∉ linkAnnotations ts c := by
  have hother : ∀ a ∈ linkAnnotations ts c, a ≠ "@Id" :=
    forall_linkAnnotations (fun s _ => by simp [← String.toList_inj]) (by decide)
      fun _ => by unfold joinAnnotation; simp [← String.toList_inj]
  exact fun hmem => hother _ hmem rfl

theorem oneLine_linkAnnotations (hname : OneLine c.name)
    (hreferenced : (c.target? ts).isSome = true → OneLine c.references.columnName) :
    ∀ a ∈ linkAnnotations ts c, OneLine a := by
  have hbreak : OneLine ", " := by decide
  refine forall_linkAnnotations (fun s hs => ?_) (by decide) fun hlink => ?_
  · exact oneLine_append.2 ⟨by decide, hs⟩
  · have hparts : ∀ a ∈ ["name = \"" ++ c.name ++ "\"",
        "referencedColumnName = \"" ++ c.references.columnName ++ "\""] ++ constraintAttributes c,
        OneLine a := by
      rw [List.forall_mem_append]
      refine ⟨?_, oneLine_constraintAttributes c⟩
      simp only [List.forall_mem_cons, oneLine_append]
      exact ⟨⟨⟨by decide, hname⟩, by decide⟩, ⟨⟨by decide, hreferenced hlink⟩, by decide⟩,
        List.forall_mem_nil _⟩
    exact oneLine_append.2 ⟨oneLine_append.2 ⟨by decide, oneLine_joined hbreak hparts⟩, by decide⟩

/-- What annotates a column. An identity is said to be one first of all. -/
def memberAnnotations (ts : List (Table String)) (c : Column String) : List String :=
  identityAnnotations c ++ linkAnnotations ts c

theorem memberAnnotations_at : ∀ a ∈ memberAnnotations ts c, startsWith "@" a = true := by
  have hidentity : ∀ a ∈ identityAnnotations c, startsWith "@" a = true := by
    unfold identityAnnotations
    split_ifs <;> decide
  exact List.forall_mem_append.2 ⟨hidentity, linkAnnotations_at⟩

theorem count_memberAnnotations :
    (memberAnnotations ts c).count "@Id" = if c.primaryKey then 1 else 0 := by
  have hidentity : (identityAnnotations c).count "@Id" = if c.primaryKey then 1 else 0 := by
    unfold identityAnnotations
    split_ifs <;> decide
  rw [memberAnnotations, List.count_append, hidentity,
    List.count_eq_zero_of_not_mem id_notMem_linkAnnotations, Nat.add_zero]

theorem oneLine_memberAnnotations (hname : OneLine c.name)
    (hreferenced : (c.target? ts).isSome = true → OneLine c.references.columnName) :
    ∀ a ∈ memberAnnotations ts c, OneLine a := by
  have hidentity : ∀ a ∈ identityAnnotations c, OneLine a := by
    unfold identityAnnotations
    split_ifs <;> decide
  exact List.forall_mem_append.2 ⟨hidentity, oneLine_linkAnnotations hname hreferenced⟩

/-! Fields -/

/-- A field of an entity. -/
structure Field where
  annotations : List String
  type : String
  name : String
  annotations_at : ∀ a ∈ annotations, startsWith "@" a = true

namespace Field

/-- The line that declares a field. -/
def line (type name : String) : String := "    private " ++ type ++ " " ++ name ++ ";"

def lines (f : Field) : List String :=
  f.annotations.map ("    " ++ ·) ++ [line f.type f.name, ""]

theorem lines_eq (f : Field) :
    field f.annotations ("private " ++ f.type ++ " " ++ f.name ++ ";") = f.lines := by
  have hindented : "    private " = "    " ++ "private " := rfl
  unfold lines field line
  simp only [hindented, String.append_assoc]

variable {f : Field}

theorem oneLine_lines (hannotations : ∀ a ∈ f.annotations, OneLine a) (htype : OneLine f.type)
    (hname : OneLine f.name) : ∀ l ∈ f.lines, OneLine l := by
  rw [lines, List.forall_mem_append, List.forall_mem_map]
  unfold line
  simp only [List.forall_mem_cons, oneLine_append]
  exact ⟨fun a ha => ⟨by decide, hannotations a ha⟩,
    ⟨⟨⟨⟨by decide, htype⟩, by decide⟩, hname⟩, by decide⟩, by decide, List.forall_mem_nil _⟩

/-- Of the lines of a field the last but one alone declares. -/
theorem filter_private : f.lines.filter (startsWith "    private ") = [line f.type f.name] := by
  have hannotations : (f.annotations.map ("    " ++ ·)).filter (startsWith "    private ") = [] := by
    rw [List.filter_eq_nil_iff, List.forall_mem_map]
    intro a ha
    have hat := f.annotations_at a ha
    unfold startsWith at hat ⊢
    cases hchars : a.toList with
    | nil => simp [hchars] at hat
    | cons ch chars =>
      obtain rfl : '@' = ch := by simpa [hchars] using hat
      simp [hchars]
  have hline : startsWith "    private " (line f.type f.name) = true := by
    unfold line
    simp [startsWith]
  have hblank : startsWith "    private " "" = false := by decide
  rw [lines, List.filter_append, hannotations]
  simp [hline, hblank]

theorem count_identity : f.lines.count "    @Id" = f.annotations.count "@Id" := by
  have hid : "    @Id" = "    " ++ "@Id" := rfl
  have hindented : (f.annotations.map ("    " ++ ·)).count "    @Id" = f.annotations.count "@Id" := by
    rw [hid]
    exact List.count_map_of_injective _ _ (fun _ _ h => (String.append_right_inj _).1 h) "@Id"
  have hline : line f.type f.name ≠ "    @Id" := by
    unfold line
    simp [← String.toList_inj]
  rw [lines, List.count_append, hindented]
  simp [hline]

end Field

/-- The identity that a table without a primary key gets. -/
def identityFields (t : Table String) : List Field :=
  if t.primaryKey = none then [⟨["@Id", generatedValue], "Long", identityName t, by decide⟩] else []

/-- The type and the name that a column is declared with: the class of its target and its relation field,
or its own. -/
def declaredAs (ts : List (Table String)) (t : Table String) (c : Column String) : String × String :=
  match c.target? ts with
  | some d => (capitalizeFirst d.name, t.relationName ts d c)
  | none => (fieldType c, c.name)

def memberField (ts : List (Table String)) (t : Table String) (c : Column String) : Field :=
  ⟨memberAnnotations ts c, (declaredAs ts t c).1, (declaredAs ts t c).2, memberAnnotations_at⟩

def fields (ts : List (Table String)) (t : Table String) : List Field :=
  identityFields t ++ t.columns.map (memberField ts t)

theorem identityField_eq : identityField t = (identityFields t).flatMap Field.lines := by
  unfold identityField identityFields
  cases t.primaryKey with
  | none =>
    have hdeclared : "private Long " = "private " ++ "Long" ++ " " := rfl
    simp only [hdeclared, if_pos, List.flatMap_singleton]
    exact Field.lines_eq ⟨["@Id", generatedValue], "Long", identityName t, by decide⟩
  | some name => rfl

theorem columnField_eq (hn : t.columnNames.Nodup) (hc : c ∈ t.columns) :
    columnField ts (t.relationFields ts) c = (memberField ts t c).lines := by
  have hdeclared : declaration ts (t.relationFields ts) c =
      "private " ++ (declaredAs ts t c).1 ++ " " ++ (declaredAs ts t c).2 ++ ";" := by
    unfold declaration declaredAs
    cases hd : c.target? ts with
    | none => rfl
    | some d =>
      rw [Table.get?_relationFields hn hc hd]
      rfl
  rw [columnField, hdeclared]
  exact Field.lines_eq (memberField ts t c)

/-- The lines of an entity in front of its fields. -/
def opening (t : Table String) : List String :=
  ["@Entity",
    "@Table(name = \"" ++ t.name ++ "\")",
    "@Data",
    "public class " ++ capitalizeFirst t.name ++ " \x7b",
    ""]

theorem linesBefore_eq (hn : t.columnNames.Nodup) :
    linesBefore ts t = opening t ++ (fields ts t).flatMap Field.lines := by
  have hcolumns : t.columns.flatMap (columnField ts (t.relationFields ts)) =
      (t.columns.map (memberField ts t)).flatMap Field.lines := by
    rw [List.flatMap_map, List.flatMap_def, List.flatMap_def]
    exact congrArg List.flatten (List.map_congr_left fun c hc => columnField_eq hn hc)
  rw [linesBefore, identityField_eq, hcolumns, fields, List.flatMap_append, ← List.append_assoc]
  rfl

theorem lines_entity (hlines : ∀ l ∈ entityLines ts t, OneLine l) :
    Text.lines (entity ts t) = entityLines ts t ++ ["", ""] := by
  have hbreaks : entity ts t = joined "\n" (entityLines ts t) ++ "\n" ++ "" ++ "\n" ++ "" := by
    rw [String.append_empty, String.append_empty, String.append_assoc]
    rfl
  have hne : entityLines ts t ≠ [] := List.concat_ne_nil _ _
  rw [hbreaks, lines_append_newline, lines_append_newline, lines_joined hne, flatMap_lines hlines,
    List.append_assoc]
  rfl

/-! Names and notes without line breaks -/

/-- No name of a table or a column and no notes break the line. -/
def OneLineTexts (ts : List (Table String)) : Prop :=
  ∀ t ∈ ts, OneLine t.name ∧ OneLine t.notes ∧ ∀ c ∈ t.columns, OneLine c.name

instance (ts : List (Table String)) : Decidable (OneLineTexts ts) :=
  inferInstanceAs (Decidable
    (∀ t ∈ ts, OneLine t.name ∧ OneLine t.notes ∧ ∀ c ∈ t.columns, OneLine c.name))

theorem oneLine_declaredAs (htexts : OneLineTexts ts) (hname : OneLine c.name) :
    OneLine (declaredAs ts t c).1 ∧ OneLine (declaredAs ts t c).2 := by
  unfold declaredAs
  split
  · next d hd =>
    have hdname := (htexts d (Column.target?_eq_some hd).2.1).1
    refine ⟨oneLine_capitalizeFirst hdname, ?_⟩
    simp only [Table.relationName]
    split
    · exact oneLine_append.2 ⟨oneLine_lowerFirst hdname, oneLine_capitalizeFirst hname⟩
    · exact oneLine_lowerFirst hdname
  · refine ⟨?_, hname⟩
    simp only [fieldType]
    split <;> decide

theorem oneLine_memberField (htexts : OneLineTexts ts) (hname : OneLine c.name) :
    ∀ l ∈ (memberField ts t c).lines, OneLine l := by
  obtain ⟨htype, hdeclared⟩ := oneLine_declaredAs (t := t) htexts hname
  refine Field.oneLine_lines (oneLine_memberAnnotations hname fun hlink => ?_) htype hdeclared
  obtain ⟨d, hd⟩ := Option.isSome_iff_exists.1 hlink
  obtain ⟨-, hmem, -, hcolumn⟩ := Column.target?_eq_some hd
  obtain ⟨e, he, heq⟩ := List.mem_map.1 hcolumn
  exact heq ▸ (htexts d hmem).2.2 e he

theorem oneLine_identityFields : ∀ f ∈ identityFields t, ∀ l ∈ f.lines, OneLine l := by
  unfold identityFields identityName
  split_ifs <;> decide

section Entity

variable (hn : t.columnNames.Nodup) (htexts : OneLineTexts ts) (ht : t ∈ ts)

include hn htexts ht

theorem oneLine_entityLines : ∀ l ∈ entityLines ts t, OneLine l := by
  obtain ⟨hname, hnotes, hcolumns⟩ := htexts t ht
  have hopening : ∀ l ∈ opening t, OneLine l := by
    unfold opening
    simp only [List.forall_mem_cons, oneLine_append]
    exact ⟨by decide, ⟨⟨by decide, hname⟩, by decide⟩, by decide,
      ⟨⟨by decide, oneLine_capitalizeFirst hname⟩, by decide⟩, by decide, List.forall_mem_nil _⟩
  have hfields : ∀ l ∈ (fields ts t).flatMap Field.lines, OneLine l := by
    rw [fields, List.forall_mem_flatMap, List.forall_mem_append, List.forall_mem_map]
    exact ⟨oneLine_identityFields, fun c hc => oneLine_memberField htexts (hcolumns c hc)⟩
  have hnotesLine : ∀ l ∈ noteLines "    // " t.notes, OneLine l := by
    unfold noteLines
    split
    · exact List.forall_mem_nil _
    · exact List.forall_mem_singleton.2 (oneLine_append.2 ⟨by decide, hnotes⟩)
  rw [entityLines_eq, linesBefore_eq hn, List.forall_mem_append, List.forall_mem_append,
    List.forall_mem_append]
  exact ⟨⟨⟨hopening, hfields⟩, hnotesLine⟩, List.forall_mem_singleton.2 (by decide)⟩

/-! What can be read off the lines -/

/-- What asks for indented lines other than notes finds lines of fields only. -/
theorem filter_lines_entity {q : String → Bool}
    (hindented : ∀ l, q l = true → startsWith "    " l = true) (hnotes : ∀ s, q ("    // " ++ s) = false) :
    (Text.lines (entity ts t)).filter q = (fields ts t).flatMap fun f => f.lines.filter q := by
  have hleft : ∀ ls : List String, (∀ l ∈ ls, startsWith "    " l = false) → ls.filter q = [] :=
    fun ls hls => List.filter_eq_nil_iff.2 fun l hl hq => absurd (hindented l hq) (by simp [hls l hl])
  have hopening : (opening t).filter q = [] := by
    apply hleft
    unfold opening
    simp [startsWith, List.isPrefixOf]
  have hnotesLine : (noteLines "    // " t.notes).filter q = [] := by
    unfold noteLines
    split
    · rfl
    · simp [hnotes]
  have hclosing : (["\x7d"] ++ ["", ""]).filter q = [] := hleft _ (by decide)
  rw [lines_entity (oneLine_entityLines hn htexts ht), entityLines_eq, linesBefore_eq hn,
    List.append_assoc, List.filter_append, List.filter_append, List.filter_append, hopening, hnotesLine,
    hclosing, List.filter_flatMap]
  simp only [List.nil_append, List.append_nil]

/-- The lines that declare are those of the fields, in order. -/
theorem filter_private_entity :
    (Text.lines (entity ts t)).filter (startsWith "    private ") =
      (fields ts t).map fun f => Field.line f.type f.name := by
  have hindented : ∀ l, startsWith "    private " l = true → startsWith "    " l = true := by
    intro l hl
    have hlead : "    ".toList <+: "    private ".toList := by decide
    exact List.isPrefixOf_iff_prefix.2 (hlead.trans (List.isPrefixOf_iff_prefix.1 hl))
  have hnotes : ∀ s, startsWith "    private " ("    // " ++ s) = false := by
    simp [startsWith, List.isPrefixOf]
  rw [filter_lines_entity hn htexts ht hindented hnotes, List.map_eq_flatMap]
  simp only [Field.filter_private]

/-- The lines that annotate an identity: one for each column that is a key, or that of the synthesized
field. -/
theorem count_identity_entity :
    (Text.lines (entity ts t)).count "    @Id" =
      (if t.primaryKey = none then 1 else 0) + t.columns.countP (·.primaryKey) := by
  have hindented : ∀ l, (l == "    @Id") = true → startsWith "    " l = true := by
    intro l hl
    rw [eq_of_beq hl]
    decide
  have hnotes : ∀ s, ("    // " ++ s == "    @Id") = false := by
    refine fun s => beq_eq_false_iff_ne.2 fun heq => ?_
    simpa using congrArg String.toList heq
  have hidentity : ((identityFields t).map (·.annotations.count "@Id")).sum =
      if t.primaryKey = none then 1 else 0 := by
    unfold identityFields
    split <;> rfl
  have hcolumns : ∀ cs : List (Column String),
      ((cs.map (memberField ts t)).map (·.annotations.count "@Id")).sum = cs.countP (·.primaryKey) := by
    intro cs
    induction cs with
    | nil => rfl
    | cons c cs ih =>
      have hc : (memberField ts t c).annotations.count "@Id" = if c.primaryKey then 1 else 0 :=
        count_memberAnnotations
      rw [List.map_cons, List.map_cons, List.sum_cons, ih, hc, List.countP_cons, Nat.add_comm]
  have hfields : ((fields ts t).flatMap fun f => f.lines.filter (· == "    @Id")).length =
      ((fields ts t).map (·.annotations.count "@Id")).sum := by
    simp only [List.length_flatMap, ← List.count_eq_length_filter, Field.count_identity]
  rw [List.count_eq_length_filter, filter_lines_entity hn htexts ht hindented hnotes, hfields, fields,
    List.map_append, List.sum_append, hidentity, hcolumns]

end Entity

end SchemaDesign.Export.Jpa

namespace SchemaDesign.Store

open Export Export.Jpa

/-- The identity and the fields of every entity, in any store that calls can reach and in which neither
names nor notes break a line. -/
theorem run_entity (ids : TableId.Supply) (actions : List Action)
    (htexts : OneLineTexts (run ids actions).tables) :
    ∀ t ∈ (run ids actions).tables,
      (Text.lines (entity (run ids actions).tables t)).count "    @Id" = 1 ∧
      (Text.lines (entity (run ids actions).tables t)).filter (Text.startsWith "    private ") =
        (if t.primaryKey = none then ["    private Long " ++ identityName t ++ ";"] else []) ++
          t.columns.map (fun c => match c.target? (run ids actions).tables with
            | some d => "    private " ++ capitalizeFirst d.name ++ " " ++
                t.relationName (run ids actions).tables d c ++ ";"
            | none => "    private " ++ fieldType c ++ " " ++ c.name ++ ";") ∧
      ∀ c ∈ t.columns, ∀ d, c.target? (run ids actions).tables = some d →
        Assoc.get? c.name (t.relationFields (run ids actions).tables) =
          some (t.relationName (run ids actions).tables d c) := by
  intro t ht
  have hkeyed := run_keyed ids actions t ht
  have hn : t.columnNames.Nodup := hkeyed.names_nodup
  refine ⟨?_, ?_, fun c hc d hd => Table.get?_relationFields hn hc hd⟩
  · rw [count_identity_entity hn htexts ht, hkeyed.countP_primaryKey]
    split <;> rfl
  · rw [filter_private_entity hn htexts ht, fields, List.map_append, List.map_map]
    congr 1
    · unfold identityFields
      split
      · have hlong : "    private " ++ "Long" ++ " " = "    private Long " := rfl
        unfold Field.line
        rw [List.map_singleton, hlong]
      · rfl
    · refine List.map_congr_left fun c _ => ?_
      simp only [Function.comp_apply, memberField, declaredAs]
      split <;> rfl

/-- Of two tables the first has a key and the second none. The columns of the second lead into the first,
and the identity that it gets is not called like its column. -/
def billedRun : List Action :=
  [.create ⟨"users", "customers",
      [⟨"id", "int", none, false, true, true, false, Reference.unset⟩], none⟩,
   .create ⟨"bills", "",
      [⟨"id", "int", none, true, false, false, false, Reference.unset⟩,
       ⟨"buyer", "int", none, true, false, false, true, ⟨TableId.ofNumber 1, "id"⟩⟩,
       ⟨"payer", "int", none, true, false, false, true, ⟨TableId.ofNumber 1, "id"⟩⟩], none⟩]

def billedTables : List (Table String) :=
  [⟨TableId.ofNumber 1, "users", "customers",
      [⟨"id", "int", none, false, true, true, false, Reference.unset⟩]⟩,
   ⟨TableId.ofNumber 2, "bills", "",
      [⟨"id", "int", none, true, false, false, false, Reference.unset⟩,
       ⟨"buyer", "int", none, true, false, false, true, ⟨TableId.ofNumber 1, "id"⟩⟩,
       ⟨"payer", "int", none, true, false, false, true, ⟨TableId.ofNumber 1, "id"⟩⟩]⟩]

theorem entity_billedRun : (run .counter billedRun).tables = billedTables ∧ OneLineTexts billedTables ∧
    (∀ t ∈ billedTables, (Text.lines (entity billedTables t)).count "    @Id" = 1) ∧
    billedTables.map (fun t =>
        (Text.lines (entity billedTables t)).filter (Text.startsWith "    private ")) =
      [["    private Integer id;"],
       ["    private Long generatedId;", "    private Integer id;", "    private Users usersBuyer;",
        "    private Users usersPayer;"]] := by
  have hrun : (run .counter billedRun).tables = billedTables := by decide +kernel
  have htexts : OneLineTexts billedTables := by decide
  have hentity := run_entity .counter billedRun
  rw [hrun] at hentity
  refine ⟨hrun, htexts, fun t ht => (hentity htexts t ht).1, ?_⟩
  rw [List.map_congr_left fun t ht => (hentity htexts t ht).2.1]
  decide +kernel

end SchemaDesign.Store
