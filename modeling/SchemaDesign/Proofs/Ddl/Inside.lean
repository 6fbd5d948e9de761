import SchemaDesign.Proofs.Ddl.Calm
import SchemaDesign.Proofs.Ddl.Report
import SchemaDesign.Proofs.Ddl.Shut

/-! The names of the columns that are read from a text stand in it one behind the other. -/
namespace SchemaDesign.Ddl
open Text

variable {s : List Char}

theorem find?_append {f : Found} (h : find? s = some f) : s = f.before ++ (f.head ++ f.after) := by
  induction s generalizing f with
  | nil => cases h
  | cons c s ih =>
    unfold find? at h
    split at h
    · next table after hh =>
      cases h
      obtain ⟨head, hhead⟩ := (header_suffix hh).1
      have htake : (c :: s).take ((c :: s).length - after.length) = head := by
        rw [← hhead, List.length_append, Nat.add_sub_cancel, List.take_left]
      change c :: s = (c :: s).take ((c :: s).length - after.length) ++ after
      rw [htake, hhead]
    · obtain ⟨g, hg, rfl⟩ := Option.map_eq_some_iff.1 h
      exact congrArg (c :: ·) (ih (f := g) hg)

theorem splitBody_eq_some {depth : Nat} {body rest : List Char}
    (h : splitBody depth s = some (body, rest)) : s = body ++ ')' :: rest := by
  induction s generalizing depth body with
  | nil => cases h
  | cons c s ih =>
    simp only [splitBody] at h
    split at h
    · obtain ⟨⟨b, r⟩, hb, he⟩ := Option.map_eq_some_iff.1 h
      cases he
      exact congrArg (c :: ·) (ih hb)
    · split at h
      · next hc =>
        split at h
        · cases h
          rw [hc]
          rfl
        · obtain ⟨⟨b, r⟩, hb, he⟩ := Option.map_eq_some_iff.1 h
          cases he
          exact congrArg (c :: ·) (ih hb)
      · obtain ⟨⟨b, r⟩, hb, he⟩ := Option.map_eq_some_iff.1 h
        cases he
        exact congrArg (c :: ·) (ih hb)

theorem splitUnclosed_append (s : List Char) : (splitUnclosed s).1 ++ (splitUnclosed s).2 = s := by
  fun_induction splitUnclosed s with
  | case1 => rfl
  | case2 => rfl
  | case3 => rfl
  | case4 c s _ _ taken rest h ih =>
    rw [h] at ih
    exact congrArg (c :: ·) ih

/-- The bodies of the statements stand in the text one behind the other. -/
theorem inside_statements (s : List Char) : Inside ((statements s).map (·.2)) s := by
  refine segments_induction (P := fun s => Inside ((statements s).map (·.2)) s) ?_ ?_ ?_ s
  · intro s hf
    rw [statements_of_none hf]
    trivial
  · intro s f body rest hf hb ih
    rw [statements_of_closed hf hb]
    refine ⟨f.before ++ f.head, ')' :: rest, ?_, ih.append_left [')']⟩
    rw [List.append_assoc, ← splitBody_eq_some hb, ← find?_append hf]
  · intro s f hf hb ih
    rw [statements_of_unclosed hf hb]
    have hrest := (ih.append_left (splitUnclosed f.after).1).append_left (f.before ++ f.head)
    rwa [splitUnclosed_append, List.append_assoc, ← find?_append hf] at hrest

theorem inside_cutAtCommas (depth : Int) (s : List Char) :
    ∃ p ps b, cutAtCommas depth s = p :: ps ∧ s = p ++ b ∧ Inside ps b := by
  induction s generalizing depth with
  | nil => exact ⟨[], [], [], rfl, rfl, trivial⟩
  | cons c s ih =>
    unfold cutAtCommas
    split
    · obtain ⟨p, ps, b, hcut, hs, hb⟩ := ih depth
      exact ⟨[], cutAtCommas depth s, c :: s, rfl, rfl, by
        rw [hcut]
        exact ⟨[c], b, by rw [hs]; rfl, hb⟩⟩
    · obtain ⟨p, ps, b, hcut, hs, hb⟩ := ih (depth + depthChange c)
      rw [hcut]
      exact ⟨c :: p, ps, b, rfl, by rw [hs]; rfl, hb⟩

theorem inside_trim (s : List Char) : Inside [trim s] s := by
  have hstart : s.takeWhile isBlank ++ trimStart s = s := List.takeWhile_append_dropWhile
  have hend : trimEnd (trimStart s) ++ ((trimStart s).reverse.takeWhile isBlank).reverse =
      trimStart s := by
    rw [trimEnd, ← List.reverse_append, List.takeWhile_append_dropWhile, List.reverse_reverse]
  exact ⟨s.takeWhile isBlank, _, by rw [trim, hend, hstart], trivial⟩

theorem Inside.sublist {ws vs : List (List Char)} (h : Inside ws s) (hs : vs.Sublist ws) :
    Inside vs s := by
  induction hs generalizing s with
  | slnil => trivial
  | cons w _ ih =>
    obtain ⟨a, b, rfl, hb⟩ := h
    exact ((ih hb).append_left w).append_left a
  | cons_cons w _ ih =>
    obtain ⟨a, b, rfl, hb⟩ := h
    exact ⟨a, b, rfl, ih hb⟩

/-- The pieces of a body stand in it one behind the other. -/
theorem inside_pieces (body : List Char) : Inside (pieces body) body := by
  obtain ⟨p, ps, b, hcut, hs, hb⟩ := inside_cutAtCommas 0 body
  have hcuts : Inside (cutAtCommas 0 body) body := by
    rw [hcut]
    exact ⟨[], b, hs, hb⟩
  have htrimmed : Inside ((cutAtCommas 0 body).map fun w => [trim w]).flatten body := by
    refine hcuts.flatten ?_
    rw [List.forall₂_map_left_iff, List.forall₂_same]
    exact fun w _ => inside_trim w
  rw [← List.flatMap_def, ← List.map_eq_flatMap] at htrimmed
  exact htrimmed.sublist List.filter_sublist

/-- A blank follows the name of a column. -/
theorem definition?_split {d : Definition} (h : definition? s = some d) :
    ∃ a r, s = a ++ (d.name ++ r) ∧ ∃ c ∈ r, isBlank c = true := by
  obtain ⟨r, t, u, hname, hgap, -, -⟩ := definition?_eq_some h
  obtain ⟨a, ha⟩ := skipQuote_suffix s
  refine ⟨a, r, by rw [run_append hname, ha], ?_⟩
  unfold gap at hgap
  split at hgap
  · next c v hv =>
    split at hgap
    · next hc => exact ⟨c, (skipQuote_suffix r).subset (hv ▸ List.mem_cons_self), hc⟩
    · cases hgap
  · cases hgap

/-- The names of the columns that are added stand in the pieces that add them. -/
theorem inside_columns {b b' : Body} {ls : List (List Char)} (h : ls.foldlM Body.add b = .ok b') :
    ∃ nss, List.Forall₂ Inside nss ls ∧
      b'.columns.map (·.name.toList) = b.columns.map (·.name.toList) ++ nss.flatten := by
  induction ls generalizing b with
  | nil =>
    cases h
    exact ⟨[], .nil, by rw [List.flatten_nil, List.append_nil]⟩
  | cons l ls ih =>
    rw [List.foldlM_cons] at h
    obtain ⟨b₁, hl, h⟩ := bind_eq_ok.1 h
    obtain ⟨nss, hall, hnames⟩ := ih h
    rcases Body.columns_add hl with hsame | ⟨-, d, inlined, len, hd, -, hadd⟩
    · exact ⟨[] :: nss, .cons trivial hall, by rw [hnames, hsame, List.flatten_cons, List.nil_append]⟩
    · obtain ⟨a, r, hsplit, -⟩ := definition?_split (Piece.ofText_eq_column.1 hd).2.1
      refine ⟨[d.name] :: nss, .cons ⟨a, r, hsplit, trivial⟩ hall, ?_⟩
      rw [hnames, hadd, List.map_append, List.append_assoc, List.flatten_cons]
      simp only [Body.columnOf, List.map_cons, List.map_nil, String.toList_ofList]

/-- A body in which no comment is opened before a blank has no column in whose name one is opened. -/
theorem opens_ofPieces {body : List Char} {b : Body} (h : Body.ofPieces (pieces body) = .ok b)
    {c : Column String} (hc : c ∈ b.columns) (hopen : Has '/' '*' c.name.toList) : Opens body := by
  have hlaw : ∀ c ∈ b.columns, Has '/' '*' c.name.toList → Opens body := by
    refine foldlM_keeps (P := fun b : Body => ∀ c ∈ b.columns, Has '/' '*' c.name.toList → Opens body)
      (fun piece hpiece b b' hb ha => ?_) (b := Body.empty) (fun _ hc => by cases hc) h
    rcases Body.columns_add ha with hsame | ⟨-, d, inlined, len, hd, -, hadd⟩
    · rwa [hsame]
    · rw [hadd, List.forall_mem_append, List.forall_mem_singleton]
      refine ⟨hb, fun hopen => ?_⟩
      obtain ⟨e, r, hsplit, e', he', hblank⟩ := definition?_split (Piece.ofText_eq_column.1 hd).2.1
      obtain ⟨f, g, hname⟩ := hopen
      obtain ⟨a, a', hbody⟩ := (inside_pieces body).split hpiece
      have hpiece : Opens piece := by
        refine ⟨e ++ f, g ++ r, ?_, e', List.mem_append_right g he', hblank⟩
        have hname : d.name = f ++ '/' :: '*' :: g := by simpa [Body.columnOf] using hname
        rw [hsplit, hname]
        simp only [List.append_assoc, List.cons_append]
      rw [hbody]
      exact hpiece.within a a'
  exact hlaw c hc hopen

/-- The names of all columns, in order. -/
def columnNames (ts : List (Table String)) : List (List Char) :=
  ts.flatMap fun t => t.columns.map (·.name.toList)

theorem mem_columnNames {ts : List (Table String)} {t : Table String} (ht : t ∈ ts)
    {c : Column String} (hc : c ∈ t.columns) : c.name.toList ∈ columnNames ts :=
  List.mem_flatMap.2 ⟨t, ht, List.mem_map_of_mem hc⟩

theorem inside_readFrom {p : Pending} {id : String} {st : List Char × List Char} {b : Body}
    (h : p.ReadFrom id st b) (batch : List Pending) :
    Inside ((resolveTable batch p).columns.map (·.name.toList)) st.2 := by
  obtain ⟨nss, hall, hnames⟩ := inside_columns h.pieces
  rw [h.names batch, hnames]
  exact (inside_pieces st.2).flatten hall

/-- The columns that are read have their names from the text without comments, so that these hold no
comments either. -/
theorem calm_read {ids : TableId.Supply} {text : String} {r : Report} (h : read ids text = .ok r) :
    Calm (columnNames r.tables) := by
  obtain ⟨batch, skipped, hb, hr, -⟩ := read_eq_ok h
  obtain ⟨-, hall⟩ := readStatements_eq_ok hb
  have hbodies : List.Forall₂ Inside (r.tables.map fun t => t.columns.map (·.name.toList))
      ((statements (source text)).map (·.2)) := by
    rw [hr, List.map_map, List.forall₂_map_left_iff, List.forall₂_map_right_iff]
    exact hall.flip.imp fun p st ⟨b, hrf⟩ => inside_readFrom hrf batch
  have hflat := (inside_statements (source text)).flatten hbodies
  rw [← List.flatMap_def] at hflat
  exact calm_of_inside hflat (uncommented_withoutComments text.toList)

end SchemaDesign.Ddl
