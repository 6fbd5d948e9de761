import SchemaDesign.Proofs.Export.Fields

/-! Both sides of a relation. The fields that stand for foreign keys are written from the columns of their
own table, those at the other end from edges that are gathered over all tables; the two agree. -/
namespace SchemaDesign

/-! The first of each key -/

section FirstOfKey

variable {α β κ : Type} [BEq κ] [LawfulBEq κ] {key : α → κ}

/-- Puts an element behind others, unless one of its key is there. -/
def keepFirst (key : α → κ) (found : List α) (a : α) : List α :=
  if found.any (key · == key a) then found else found ++ [a]

omit [LawfulBEq κ] in
theorem keepFirst_of_any {found : List α} {a : α} (h : found.any (key · == key a) = true) :
    keepFirst key found a = found := if_pos h

theorem keepFirst_of_notMem {found : List α} {a : α} (h : key a ∉ found.map key) :
    keepFirst key found a = found ++ [a] := by
  apply if_neg
  simpa using h

/-- Of a block under one key that is new, the first element is kept. -/
theorem foldl_keepFirst_block {found block : List α} {k : κ} (hk : ∀ a ∈ block, key a = k)
    (hnew : k ∉ found.map key) : block.foldl (keepFirst key) found = found ++ block.head?.toList := by
  cases block with
  | nil => simp
  | cons a block =>
    obtain ⟨rfl, hblock⟩ := List.forall_mem_cons.1 hk
    have hkept : ∀ as : List α, (∀ b ∈ as, key b = key a) →
        as.foldl (keepFirst key) (found ++ [a]) = found ++ [a] := by
      intro as has
      induction as with
      | nil => rfl
      | cons b as ih =>
        obtain ⟨hb, has⟩ := List.forall_mem_cons.1 has
        rw [List.foldl_cons, keepFirst_of_any (by simp [hb]), ih has]
    rw [List.foldl_cons, keepFirst_of_notMem hnew, hkept block hblock]
    rfl

/-- Of blocks under different keys, the first element of each is kept. -/
theorem foldl_keepFirst_flatMap {bs : List β} {block : β → List α} {keyOf : β → κ}
    (hblock : ∀ b ∈ bs, ∀ a ∈ block b, key a = keyOf b) (hn : (bs.map keyOf).Nodup) :
    (bs.flatMap block).foldl (keepFirst key) [] = bs.filterMap fun b => (block b).head? := by
  have hfold : ∀ (bs : List β) (found : List α), (∀ b ∈ bs, ∀ a ∈ block b, key a = keyOf b) →
      (bs.map keyOf).Nodup → (∀ b ∈ bs, keyOf b ∉ found.map key) →
      (bs.flatMap block).foldl (keepFirst key) found =
        found ++ bs.filterMap fun b => (block b).head? := by
    intro bs
    induction bs with
    | nil => simp
    | cons b bs ih =>
      intro found hblock hn hnew
      obtain ⟨hb, hblock⟩ := List.forall_mem_cons.1 hblock
      rw [List.map_cons, List.nodup_cons] at hn
      obtain ⟨hfree, hnew⟩ := List.forall_mem_cons.1 hnew
      rw [List.flatMap_cons, List.foldl_append, foldl_keepFirst_block hb hfree, ih _ hblock hn.2]
      · cases hhead : (block b).head? <;> simp [hhead]
      · intro c hc hmem
        rw [List.map_append, List.mem_append] at hmem
        rcases hmem with hmem | hmem
        · exact hnew c hc hmem
        · obtain ⟨a, ha, hkey⟩ := List.mem_map.1 hmem
          rw [hb a (List.mem_of_mem_head? (Option.mem_toList.1 ha))] at hkey
          exact hn.1 (hkey ▸ List.mem_map_of_mem hc)
  rw [hfold bs [] hblock hn (by simp), List.nil_append]

end FirstOfKey

namespace Export.Prisma

variable {ts : List (Table String)} {t s : Table String}

/-- The edge from another table into `t`: its first column that leads there. -/
def firstEdge? (ts : List (Table String)) (t s : Table String) : Option (Edge String) :=
  if s.id = t.id then none else (s.columns.find? fun c => c.target? ts = some t).map (⟨s, ·⟩)

/-- All edges from a table into another one. -/
def edgesInto (ts : List (Table String)) (t s : Table String) : List (Edge String) :=
  if s.id = t.id then [] else (s.linksInto ts t).map (⟨s, ·⟩)

theorem head?_edgesInto (ts : List (Table String)) (t s : Table String) :
    (edgesInto ts t s).head? = firstEdge? ts t s := by
  unfold edgesInto firstEdge? Table.linksInto
  split
  · rfl
  · rw [List.head?_map, List.head?_filter]

theorem edgesInto_eq_filterMap (ts : List (Table String)) (t s : Table String) :
    edgesInto ts t s = s.columns.filterMap fun c =>
      if s.id ≠ t.id ∧ c.target? ts = some t then some ⟨s, c⟩ else none := by
  unfold edgesInto Table.linksInto
  by_cases hs : s.id = t.id
  · simp [hs]
  · simp only [hs, ne_eq, not_false_eq_true, true_and, if_false]
    induction s.columns with
    | nil => rfl
    | cons c cs ih => by_cases hc : c.target? ts = some t <;> simp [hc, ih]

/-- The edges that are gathered for a table, in the order of the tables that they come from. -/
theorem filter_edges (hn : (ts.map (·.id)).Nodup) (ht : t ∈ ts) :
    ((edges ts).filter (·.1 == t.id)).map (·.2) = ts.flatMap (edgesInto ts t) := by
  rw [edges, List.filter_flatMap, List.map_flatMap]
  apply congrArg (List.flatMap · ts)
  funext s
  rw [List.filter_filterMap, List.map_filterMap, edgesInto_eq_filterMap]
  apply List.filterMap_congr
  intro c _
  cases hc : c.target? ts with
  | none => simp
  | some d =>
    have hd := (Column.target?_eq_some hc).2.1
    have hsame : d.id = t.id ↔ d = t := ⟨Table.eq_of_id_eq hn hd ht, congrArg Table.id⟩
    by_cases hs : d.id = s.id
    · have hown : ¬ (s.id ≠ t.id ∧ d = t) := fun h => h.1 (hs.symm.trans (hsame.2 h.2))
      simp [hs, hown]
    · by_cases hdt : d = t
      · subst hdt
        simp [Option.filter, Ne.symm hs, hs]
      · simp [Option.filter, hs, hdt, hsame]

/-- Of the tables in their order, each other one that leads into `t` gives its first edge. -/
theorem backReferences_edges (hn : (ts.map (·.id)).Nodup) (ht : t ∈ ts) :
    backReferences (edges ts) t.id = ts.filterMap (firstEdge? ts t) := by
  have hfold : backReferences (edges ts) t.id =
      (((edges ts).filter (·.1 == t.id)).map (·.2)).foldl (keepFirst (·.source.id)) [] := by
    rw [List.foldl_map]
    rfl
  have hsource : ∀ s ∈ ts, ∀ e ∈ edgesInto ts t s, e.source.id = s.id := by
    intro s _ e he
    unfold edgesInto at he
    split at he
    · cases he
    · obtain ⟨c, -, rfl⟩ := List.mem_map.1 he
      rfl
  rw [hfold, filter_edges hn ht, foldl_keepFirst_flatMap hsource hn]
  simp only [head?_edgesInto]

theorem firstEdge?_eq_some {e : Edge String} (h : firstEdge? ts t s = some e) :
    e.source = s ∧ s.id ≠ t.id ∧ e.column ∈ s.linksInto ts t := by
  unfold firstEdge? at h
  split at h
  · cases h
  · next hs =>
    obtain ⟨c, hc, rfl⟩ := Option.map_eq_some_iff.1 h
    exact ⟨rfl, hs, Table.mem_linksInto.2
      ⟨List.mem_of_find?_eq_some hc, by simpa using List.find?_some hc⟩⟩

theorem firstEdge?_isSome :
    (firstEdge? ts t s).isSome = true ↔ s.id ≠ t.id ∧ s.linksInto ts t ≠ [] := by
  by_cases hs : s.id = t.id
  · simp [firstEdge?, hs]
  · simp [firstEdge?, Table.linksInto, hs]

theorem mem_relations {f : Field} :
    (t, f) ∈ relations ts s ↔ ∃ c ∈ s.linksInto ts t, f = relationField ts s t c := by
  simp only [relations, List.mem_filterMap, Option.map_eq_some_iff, Prod.mk.injEq, Table.mem_linksInto]
  constructor
  · rintro ⟨c, hc, d, hd, rfl, rfl⟩
    exact ⟨c, ⟨hc, hd⟩, rfl⟩
  · rintro ⟨c, ⟨hc, hd⟩, rfl⟩
    exact ⟨c, hc, t, hd, rfl, rfl⟩

theorem mem_backLinks (hn : (ts.map (·.id)).Nodup) (ht : t ∈ ts) (hs : s ∈ ts) :
    (∃ f, (s, f) ∈ backLinks ts t) ↔ s ≠ t ∧ s.linksInto ts t ≠ [] := by
  have hid : s ≠ t ↔ s.id ≠ t.id := not_congr ⟨congrArg Table.id, Table.eq_of_id_eq hn hs ht⟩
  rw [hid, ← firstEdge?_isSome, Option.isSome_iff_exists, backLinks, backReferences_edges hn ht]
  constructor
  · rintro ⟨f, hf⟩
    obtain ⟨e, he, hpair⟩ := List.mem_map.1 hf
    obtain ⟨u, -, hedge⟩ := List.mem_filterMap.1 he
    obtain ⟨rfl, -⟩ := Prod.mk.inj hpair
    rw [(firstEdge?_eq_some hedge).1]
    exact ⟨e, hedge⟩
  · rintro ⟨e, he⟩
    refine ⟨backField e, List.mem_map.2 ⟨e, List.mem_filterMap.2 ⟨s, hs, he⟩, ?_⟩⟩
    rw [(firstEdge?_eq_some he).1]

/-- A relation stands in the models of both of its tables. The edges into a table are, in the order of the
tables, one from each other table with a column that leads into it, by the first such column, and the model
ends with their fields: optional if that column is unique, and lists otherwise. So of two tables one has a
relation field towards the other exactly if the other has a back reference from the one. -/
theorem relations_on_both_sides (hn : (ts.map (·.id)).Nodup) (ht : t ∈ ts) :
    backReferences (edges ts) t.id = ts.filterMap (firstEdge? ts t) ∧
    modelLines ts (edges ts) t =
      heading t ++ (scalarFields t ++ (relations ts t).map (·.2)).map Field.line ++
        (ts.filterMap (firstEdge? ts t)).map (fun e => "  " ++ lowerFirst e.source.name ++ " " ++
          (capitalizeFirst e.source.name ++ if e.column.unique then "?" else "[]")) ++ ["\x7d"] ∧
    ∀ s ∈ ts, s ≠ t → ((∃ f, (t, f) ∈ relations ts s) ↔ ∃ f, (s, f) ∈ backLinks ts t) := by
  refine ⟨backReferences_edges hn ht, ?_, fun s hs hne => ?_⟩
  · have hback : (backLinks ts t).map (·.2) = (ts.filterMap (firstEdge? ts t)).map backField := by
      rw [backLinks, backReferences_edges hn ht, List.map_map]
      rfl
    rw [modelLines_eq, fields, hback, List.map_append, List.map_map, ← List.append_assoc]
    rfl
  · rw [mem_backLinks hn ht hs]
    constructor
    · rintro ⟨f, hf⟩
      obtain ⟨c, hc, -⟩ := mem_relations.1 hf
      exact ⟨hne, List.ne_nil_of_mem hc⟩
    · rintro ⟨-, hlinks⟩
      obtain ⟨c, hc⟩ := List.exists_mem_of_ne_nil _ hlinks
      exact ⟨_, mem_relations.2 ⟨c, hc, rfl⟩⟩

/-- A table that refers to itself. -/
def hubTable : Table String := ⟨"c", "customers", "",
  [⟨"id", "int", none, false, true, true, false, Reference.unset⟩,
   ⟨"referrer", "int", none, true, false, false, true, ⟨"c", "id"⟩⟩]⟩

/-- Beside it, a table that refers to it twice, by a unique column at last, and one that does so once. -/
def hubTables : List (Table String) :=
  [hubTable,
   ⟨"o", "orders", "",
      [⟨"lost", "int", none, true, false, false, true, ⟨"x", "id"⟩⟩,
       ⟨"buyer", "int", none, false, false, false, true, ⟨"c", "id"⟩⟩,
       ⟨"payer", "int", none, true, true, false, true, ⟨"c", "id"⟩⟩]⟩,
   ⟨"p", "profiles", "", [⟨"owner", "int", none, false, true, false, true, ⟨"c", "id"⟩⟩]⟩]

theorem relations_hubTables : (hubTables.map (·.id)).Nodup ∧ hubTable ∈ hubTables ∧
    (backReferences (edges hubTables) "c").map (fun e => (e.source.name, e.column.name)) =
      [("orders", "buyer"), ("profiles", "owner")] ∧
    ["  orders Orders[]", "  profiles Profiles?", "\x7d"] <:+
      modelLines hubTables (edges hubTables) hubTable := by
  have hids : (hubTables.map (·.id)).Nodup := by decide
  have hmem : hubTable ∈ hubTables := by decide
  obtain ⟨hback, hlines, -⟩ := relations_on_both_sides hids hmem
  have hedges : hubTables.filterMap (firstEdge? hubTables hubTable) =
      [⟨hubTables[1], hubTables[1].columns[1]⟩, ⟨hubTables[2], hubTables[2].columns[0]⟩] := by
    decide +kernel
  rw [hedges] at hback hlines
  refine ⟨hids, hmem, ?_, ?_⟩
  · show (backReferences (edges hubTables) hubTable.id).map _ = _
    rw [hback]
    rfl
  · have hlast : ["  orders Orders[]", "  profiles Profiles?", "\x7d"] =
        ([⟨hubTables[1], hubTables[1].columns[1]⟩, ⟨hubTables[2], hubTables[2].columns[0]⟩] :
          List (Edge String)).map (fun e => "  " ++ lowerFirst e.source.name ++ " " ++
            (capitalizeFirst e.source.name ++ if e.column.unique then "?" else "[]")) ++ ["\x7d"] := by
      decide +kernel
    rw [hlines, List.append_assoc, hlast]
    exact List.suffix_append _ _

end Export.Prisma

end SchemaDesign
