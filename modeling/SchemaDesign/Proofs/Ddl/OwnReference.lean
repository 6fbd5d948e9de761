import SchemaDesign.Proofs.Ddl.ForeignKey
import SchemaDesign.Proofs.Ddl.Semicolon
import SchemaDesign.Proofs.Ddl.Spelling

/-! The reference that stands inside the definition of a column. It is looked for in the whole text of the
definition, so besides a clause among the modifiers there are three ways to one, which pass through the
name, the type, or the length. -/
namespace SchemaDesign.Ddl
open Text

/-- Whether a text goes on with a name and another one in parentheses, as a references clause does behind
its first word. -/
def namesTarget (s : List Char) : Bool := ((name s).bind (parenthesisedName ·.2)).isSome

/-- The same behind a gap. -/
def opensTarget (s : List Char) : Bool := (gap s).any namesTarget

/-- Whether a text ends in a given word. `inWord` tells whether a word character precedes the text. -/
def endsInWord (w : List Char) (inWord : Bool) : List Char → Bool
  | [] => false
  | c :: s => (!inWord && spells w (c :: s)) || endsInWord w (isWord c) s

/-- Whether a text begins with parentheses, taken to the first that closes, in which a clause stands. -/
def lengthHolds (s : List Char) : Bool :=
  (spacedMark '(' s).any fun inner =>
    inner.contains ')' && (inlineTarget? false (inner.takeWhile (· != ')') ++ [')'])).isSome

/-- Whether a definition passes for a references clause before its modifiers begin: by a name that ends in
the first word of one, by a type that is this word, or by a clause in place of the length. -/
def Spelling.mimics (w : Spelling) : Bool :=
  (w.closing.isNone && endsInWord "REFERENCES".toList false w.name && namesTarget w.typed)
    || (spells "REFERENCES".toList w.type && opensTarget w.tail)
    || lengthHolds w.tail

/-! The search in a text that is made up of parts -/

theorem isSome_referencesClause? (s : List Char) :
    (referencesClause? s).isSome = (keyword "REFERENCES".toList s).any opensTarget := by
  unfold referencesClause?
  cases keyword "REFERENCES".toList s with
  | none => rfl
  | some r =>
    cases hg : gap r with
    | none => simp [opensTarget, hg]
    | some u =>
      cases hn : name u with
      | none => simp [opensTarget, namesTarget, hg, hn]
      | some p => cases hp : parenthesisedName p.2 <;> simp [opensTarget, namesTarget, hg, hn, hp]

theorem keyword_references_append {t : List Char} (ht : Stops isLetter t) (s : List Char) :
    keyword "REFERENCES".toList (s ++ t) = (keyword "REFERENCES".toList s).map (· ++ t) :=
  keyword_append_stop (stops_sameLetter (by decide) ht) s

/-- A clause that begins in a text without blanks has its first word at the end of that text. -/
theorem isSome_referencesClause?_append {s t : List Char} (hs : ∀ c ∈ s, isBlank c = false)
    (ht : Stops isLetter t) :
    (referencesClause? (s ++ t)).isSome = (spells "REFERENCES".toList s && opensTarget t) := by
  rw [isSome_referencesClause?, keyword_references_append ht, spells]
  cases hk : keyword "REFERENCES".toList s with
  | none => rfl
  | some r =>
    cases r with
    | nil => simp
    | cons c r =>
      have hc := keyword_subset hk hs c List.mem_cons_self
      have hgap : gap (c :: (r ++ t)) = none := gap_of_stops (stops_cons.2 hc)
      simp [opensTarget, hgap]

theorem isSome_inlineTarget?_cons (inWord : Bool) (c : Char) (s : List Char) :
    (inlineTarget? inWord (c :: s)).isSome =
      ((!inWord && (referencesClause? (c :: s)).isSome) || (inlineTarget? (isWord c) s).isSome) := by
  rw [inlineTarget?]
  cases inWord <;> simp

theorem referencesClause?_of_stops {s : List Char} (hs : Stops isLetter s) : referencesClause? s = none := by
  have h : (referencesClause? s).isSome = false :=
    isSome_referencesClause?_append (s := []) (fun _ hc => absurd hc List.not_mem_nil) hs
  exact Option.not_isSome_iff_eq_none.1 (Bool.eq_false_iff.1 h)

/-- Before a text that no letter begins it does not matter what precedes it. -/
theorem inlineTarget?_of_stops {s : List Char} (hs : Stops isLetter s) (inWord : Bool) :
    inlineTarget? inWord s = inlineTarget? false s := by
  cases s with
  | nil => rfl
  | cons c s =>
    rw [inlineTarget?, inlineTarget?, referencesClause?_of_stops hs]
    cases inWord <;> rfl

/-- No clause begins at a character that is none of a word. -/
theorem inlineTarget?_marks_append {b : List Char} (hb : ∀ c ∈ b, isWord c = false) (s : List Char) :
    inlineTarget? false (b ++ s) = inlineTarget? false s := by
  induction b with
  | nil => rfl
  | cons c b ih =>
    obtain ⟨hc, hb⟩ := List.forall_mem_cons.1 hb
    have hnone : referencesClause? (c :: (b ++ s)) = none :=
      referencesClause?_of_stops (stops_cons.2 (isLetter_of_not_isWord hc))
    rw [List.cons_append, inlineTarget?, hnone, hc]
    exact ih hb

/-- A clause begins in a text without blanks, at its last word, or behind it. -/
theorem isSome_inlineTarget?_append {s t : List Char} (hs : ∀ c ∈ s, isBlank c = false)
    (ht : Stops isLetter t) (inWord : Bool) :
    (inlineTarget? inWord (s ++ t)).isSome =
      ((endsInWord "REFERENCES".toList inWord s && opensTarget t) || (inlineTarget? false t).isSome) := by
  induction s generalizing inWord with
  | nil =>
    show (inlineTarget? inWord t).isSome = (inlineTarget? false t).isSome
    rw [inlineTarget?_of_stops ht]
  | cons c s ih =>
    -- a clause that begins here has all that is left of `s` as its first word
    rw [List.cons_append, isSome_inlineTarget?_cons, ih (List.forall_mem_cons.1 hs).2,
      ← List.cons_append, isSome_referencesClause?_append hs ht, endsInWord]
    rw [Bool.and_or_distrib_right, Bool.or_assoc, Bool.and_assoc]

/-- A text of letters ends in a word if it is that word. -/
theorem endsInWord_letters {w s : List Char} (hw : w ≠ []) (hs : ∀ c ∈ s, isLetter c = true) :
    endsInWord w false s = spells w s := by
  have hinside : ∀ {s : List Char}, (∀ c ∈ s, isLetter c = true) → endsInWord w true s = false := by
    intro s hs
    induction s with
    | nil => rfl
    | cons c s ih =>
      obtain ⟨hc, hs⟩ := List.forall_mem_cons.1 hs
      rw [endsInWord, isWord_of_isLetter hc, ih hs]
      rfl
  cases s with
  | nil =>
    cases w with
    | nil => exact absurd rfl hw
    | cons l w => rfl
  | cons c s =>
    obtain ⟨hc, hs⟩ := List.forall_mem_cons.1 hs
    rw [endsInWord, isWord_of_isLetter hc, hinside hs]
    simp

/-! The search in a length -/

theorem barrier_closing : Barrier ')' :=
  ⟨by decide, by decide, by decide +kernel, by decide, by decide⟩

theorem isSome_parenthesisedName_closing (s rest : List Char) :
    (parenthesisedName (s ++ ')' :: rest)).isSome = (parenthesisedName (s ++ [')'])).isSome := by
  have hopen : ∀ rest, spacedMark '(' (s ++ ')' :: rest) = (spacedMark '(' s).map (· ++ ')' :: rest) := by
    intro rest
    rw [spacedMark, barrier_closing.skipBlanks_append, mark_append_cons (by decide), spacedMark]
  have hclose : ∀ (u rest : List Char), (spacedMark ')' (u ++ ')' :: rest)).isSome =
      (spacedMark ')' (u ++ [')'])).isSome := by
    intro u rest
    rw [spacedMark, spacedMark, barrier_closing.skipBlanks_append, barrier_closing.skipBlanks_append]
    cases skipBlanks u with
    | nil => rfl
    | cons c u => by_cases hc : c = ')' <;> simp [mark, hc]
  unfold parenthesisedName
  rw [hopen, hopen]
  cases spacedMark '(' s with
  | none => rfl
  | some r =>
    simp only [Option.map_some, Option.bind_eq_bind, Option.bind_some, barrier_closing.skipBlanks_append,
      barrier_closing.name_append]
    cases name (skipBlanks r) with
    | none => rfl
    | some p => simpa [Option.isSome_bind] using hclose p.2 rest

/-- A clause that begins before a closing parenthesis does not go on behind it. -/
theorem isSome_referencesClause?_closing (s rest : List Char) :
    (referencesClause? (s ++ ')' :: rest)).isSome = (referencesClause? (s ++ [')'])).isSome := by
  have hstops : ∀ rest, Stops isLetter (')' :: rest) := fun rest => stops_cons.2 (by decide)
  rw [isSome_referencesClause?, isSome_referencesClause?, keyword_references_append (hstops rest),
    keyword_references_append (hstops [])]
  cases keyword "REFERENCES".toList s with
  | none => rfl
  | some r =>
    simp only [Option.map_some, Option.any_some, opensTarget, barrier_closing.gap_append]
    cases gap r with
    | none => rfl
    | some u =>
      simp only [Option.map_some, Option.any_some, namesTarget, barrier_closing.name_append]
      cases name u with
      | none => rfl
      | some p => exact isSome_parenthesisedName_closing p.2 rest

theorem isSome_inlineTarget?_closing (s : List Char) (inWord : Bool) (rest : List Char) :
    (inlineTarget? inWord (s ++ ')' :: rest)).isSome =
      ((inlineTarget? inWord (s ++ [')'])).isSome || (inlineTarget? false rest).isSome) := by
  have hmark : ∀ rest, Stops isLetter (')' :: rest) := fun rest => stops_cons.2 (by decide)
  induction s generalizing inWord with
  | nil =>
    have hclose : ∀ rest, inlineTarget? inWord (')' :: rest) = inlineTarget? false rest := by
      intro rest
      rw [inlineTarget?_of_stops (hmark rest)]
      exact inlineTarget?_marks_append (b := [')']) (by decide +kernel) rest
    show (inlineTarget? inWord (')' :: rest)).isSome =
      ((inlineTarget? inWord [')']).isSome || (inlineTarget? false rest).isSome)
    rw [hclose, hclose]
    rfl
  | cons c s ih =>
    rw [List.cons_append, List.cons_append, isSome_inlineTarget?_cons, isSome_inlineTarget?_cons, ih,
      ← List.cons_append, isSome_referencesClause?_closing, Bool.or_assoc]
    rfl

/-- Behind a type, a clause stands in the length or among the modifiers. -/
theorem isSome_inlineTarget?_tail (s : List Char) :
    (inlineTarget? false s).isSome =
      (lengthHolds s || (inlineTarget? false (qualifier s).2).isSome) := by
  unfold lengthHolds qualifier
  cases hopen : spacedMark '(' s with
  | none => rfl
  | some inner =>
    obtain ⟨b, hb, rfl⟩ := spacedMark_eq_some hopen
    have hsplit := List.takeWhile_append_dropWhile (p := (· != ')')) (l := inner)
    have hopened : inlineTarget? false (b ++ '(' :: inner) = inlineTarget? false inner := by
      rw [inlineTarget?_marks_append fun c hc => isWord_of_isBlank (hb c hc)]
      exact inlineTarget?_marks_append (b := ['(']) (by decide +kernel) inner
    dsimp only [Option.any_some]
    cases hclose : inner.dropWhile (· != ')') with
    | nil =>
      have hnone : inner.contains ')' = false := by
        rw [List.dropWhile_eq_nil_iff] at hclose
        simpa using fun h => by simpa using hclose _ h
      rw [hnone, Bool.false_and, Bool.false_or]
    | cons c rest =>
      obtain rfl : c = ')' := by
        have hhead := List.head?_dropWhile_not (· != ')') inner
        rw [hclose] at hhead
        simpa using hhead
      have hmem : inner.contains ')' = true := by
        rw [← hsplit, hclose]
        simp
      rw [hopened, hmem, Bool.true_and, ← isSome_inlineTarget?_closing, ← hclose, hsplit]

theorem Spelling.opensTarget_behind (w : Spelling) :
    opensTarget w.behind = (w.closing.isNone && namesTarget w.typed) := by
  unfold behind opensTarget
  cases hc : w.closing with
  | none =>
    have hgap : gap (w.space ++ w.typed) = some w.typed :=
      gap_append_stop w.space_ne_nil w.space_blank w.typed_stops_isBlank
    show (gap (w.space ++ w.typed)).any namesTarget = namesTarget w.typed
    rw [hgap, Option.any_some]
  | some q =>
    have hgap : gap (q :: (w.space ++ w.typed)) = none := by
      apply gap_of_stops
      rw [stops_cons]
      cases hb : isBlank q with
      | false => rfl
      | true => simpa [isQuote_of_isBlank hb] using w.closing_quote q hc
    show (gap (q :: (w.space ++ w.typed))).any namesTarget = false
    rw [hgap, Option.any_none]

/-- A reference is found in a definition exactly if it passes for a clause, or one stands among its
modifiers. -/
theorem Spelling.isSome_inlineTarget? (w : Spelling) :
    (inlineTarget? false w.text).isSome =
      (w.mimics || (inlineTarget? false w.definition.modifiers).isSome) := by
  have hquote {q : Option Char} (hq : ∀ c ∈ q, isQuote c = true) : ∀ c ∈ q.toList, isWord c = false :=
    fun c hc => isWord_of_isQuote (hq c (Option.mem_toList.1 hc))
  have hname : ∀ c ∈ w.name, isBlank c = false := fun c hc => (isNameChar_spec (w.name_chars c hc)).1
  have hletter : ∀ c ∈ w.type, isBlank c = false := fun c hc =>
    isBlank_of_isWord (isWord_of_isLetter (w.type_letters c hc))
  have hbehind : Stops isLetter w.behind :=
    w.stops_behind (fun _ hc => isLetter_of_not_isWord (isWord_of_isQuote hc))
      fun _ hc => isLetter_of_not_isWord (isWord_of_isBlank hc)
  have hparts : inlineTarget? false w.behind = inlineTarget? false (w.type ++ w.tail) := by
    rw [behind, inlineTarget?_marks_append (hquote w.closing_quote),
      inlineTarget?_marks_append fun c hc => isWord_of_isBlank (w.space_blank c hc), typed]
  rw [text, inlineTarget?_marks_append (hquote w.opening_quote), isSome_inlineTarget?_append hname hbehind,
    hparts, isSome_inlineTarget?_append hletter w.tail_stops, endsInWord_letters (by decide) w.type_letters,
    isSome_inlineTarget?_tail, w.opensTarget_behind, mimics, definition]
  simp only [Bool.or_assoc, Bool.and_assoc, Bool.and_left_comm]

/-! Which piece gives a column -/

/-- A definition, spelled in this way, is the first among pieces for the name of a column. -/
structure Spelling.Defines (w : Spelling) (ps : List (List Char)) (c : Column String) : Prop where
  piece : ∃ before after, ps = before ++ w.text :: after ∧ c.name ∉ definedNames before
  no_clause : isTableClause w.text = false
  name : c.name = String.ofList w.name

theorem exists_first {ps : List (List Char)} {name : String} (h : name ∈ definedNames ps) :
    ∃ before p after d, ps = before ++ p :: after ∧ (Piece.ofText p).definition? = some d ∧
      String.ofList d.name = name ∧ name ∉ definedNames before := by
  induction ps using List.reverseRecOn with
  | nil => cases h
  | append_singleton ps p ih =>
    -- a name that the pieces before define keeps its first piece
    by_cases hname : name ∈ definedNames ps
    · obtain ⟨before, q, after, d, rfl, hq⟩ := ih hname
      exact ⟨before, q, after ++ [p], d, by simp, hq⟩
    · rw [definedNames, definitions_append_singleton, List.map_append, List.mem_append] at h
      obtain ⟨d, hd, rfl⟩ := List.mem_map.1 (h.resolve_left hname)
      exact ⟨ps, p, [], d, rfl, Option.mem_toList.1 hd, rfl, hname⟩

/-- The first definition of a name has its target. -/
theorem ownTarget?_first {before after : List (List Char)} {p : List Char} {d : Definition}
    (hd : (Piece.ofText p).definition? = some d) (hfree : String.ofList d.name ∉ definedNames before) :
    ownTarget? (String.ofList d.name) (before ++ p :: after) = inlineTarget? false p := by
  have hown : (Piece.ofText p).own? = some (String.ofList d.name, inlineTarget? false p) := by
    obtain ⟨hclause, hdefinition, hvalid⟩ := Piece.definition?_ofText.1 hd
    rw [Piece.ofText_eq_column.2 ⟨hclause, hdefinition, rfl⟩, Piece.own?, if_pos hvalid]
  have htargets : ownTargets (before ++ p :: after) =
      ownTargets before ++ (String.ofList d.name, inlineTarget? false p) :: ownTargets after := by
    simp [ownTargets, hown]
  rw [← ownTargets_map_fst] at hfree
  rw [ownTarget?, htargets, Assoc.get?_append, Assoc.get?_eq_none.2 hfree, Option.none_or]
  simp [Assoc.get?]

/-- The columns of a table, each with the spelling of its definition. It is a foreign key exactly if a
clause of the table names it, its modifiers hold a references clause, or its definition passes for one. -/
theorem ownReference_resolveColumn {q : Pending} {id : String} {st : List Char × List Char} {b : Body}
    (h : q.ReadFrom id st b) (batch : List Pending) {c : Column String} (hc : c ∈ q.table.columns) :
    ∃ w : Spelling, w.Defines (pieces st.2) (resolveColumn batch q c) ∧
      ((resolveColumn batch q c).foreignKey = true ↔
        c.name ∈ (foreignClauses (pieces st.2)).map (·.1) ∨
          (inlineTarget? false w.definition.modifiers).isSome = true ∨ w.mimics = true) := by
  have hname : c.name ∈ definedNames (pieces st.2) := by
    have hmem : c.name ∈ (resolveTable batch q).columnNames := by
      rw [resolveTable_columnNames]
      exact List.mem_map_of_mem hc
    rw [columnNames_resolveTable h batch] at hmem
    exact List.map_subset _ (firsts_subset _) hmem
  obtain ⟨before, p, after, d, hps, hd, hdname, hfree⟩ := exists_first hname
  obtain ⟨hclause, hdefinition, -⟩ := Piece.definition?_ofText.1 hd
  obtain ⟨w, rfl, rfl⟩ := Spelling.exists_of_definition? hdefinition
  have hown : ownTarget? c.name (pieces st.2) = inlineTarget? false w.text := by
    rw [hps, ← hdname]
    exact ownTarget?_first hd (hdname ▸ hfree)
  have hkey := (led_resolveColumn h batch hc).foreignKey
  rw [resolveColumn_name, hown, w.isSome_inlineTarget?, Bool.or_comm, Bool.or_eq_true] at hkey
  refine ⟨w, ⟨⟨before, after, hps, ?_⟩, hclause, ?_⟩, hkey⟩
  · rw [resolveColumn_name]
    exact hfree
  · rw [resolveColumn_name]
    exact hdname.symm

/-- What makes a column of a text that is read a foreign key: a clause of its table that names it, a
references clause behind its type and length, or a name, type or length that passes for such a clause. All
other columns hold the empty reference. -/
theorem read_ownReferences {ids : TableId.Supply} {text : String} {r : Report} (h : read ids text = .ok r) :
    List.Forall₂ (fun st t => t.name = String.ofList st.1 ∧ ∀ c ∈ t.columns, ∃ w : Spelling,
        w.Defines (pieces st.2) c ∧
        (c.foreignKey = true ↔ c.name ∈ (foreignClauses (pieces st.2)).map (·.1) ∨
          (inlineTarget? false w.definition.modifiers).isSome = true ∨ w.mimics = true) ∧
        (c.foreignKey = false → c.references = Reference.unset))
      (statements (source text)) r.tables := by
  obtain ⟨batch, skipped, hb, hr, -⟩ := read_eq_ok h
  rw [hr, List.forall₂_map_right_iff]
  apply (readStatements_eq_ok hb).2.imp
  rintro st q ⟨b, hread⟩
  refine ⟨by rw [resolveTable_name, hread.table], fun c hc => ?_⟩
  obtain ⟨e, he, rfl⟩ := List.mem_map.1 hc
  obtain ⟨w, hw, hkey⟩ := ownReference_resolveColumn hread batch he
  refine ⟨w, hw, ?_, (led_resolveColumn hread batch he).plain⟩
  rw [resolveColumn_name]
  exact hkey

/-- Columns that are called by the words of clauses, of which one has a references clause. -/
def wordedBody : List Char := "references INT, unique TEXT, key INT REFERENCES t(references)".toList

def wordedTable : Table String := ⟨TableId.ofNumber 1, "t", "",
  [⟨"references", "int", none, true, false, false, false, Reference.unset⟩,
   ⟨"unique", "text", none, true, false, false, false, Reference.unset⟩,
   ⟨"key", "int", none, true, false, false, true, ⟨TableId.ofNumber 1, "references"⟩⟩]⟩

theorem read_ownReferences_wordedTable :
    read .counter (String.ofList ("CREATE TABLE t (".toList ++ wordedBody ++ [')', ';'])) =
      .ok ⟨[wordedTable], [], []⟩ ∧
    ∀ c ∈ wordedTable.columns, ∃ w : Spelling, w.Defines (pieces wordedBody) c ∧
      (c.foreignKey = true ↔ (inlineTarget? false w.definition.modifiers).isSome = true ∨
        w.mimics = true) := by
  have hread : read .counter (String.ofList ("CREATE TABLE t (".toList ++ wordedBody ++ [')', ';'])) =
      .ok ⟨[wordedTable], [], []⟩ := by
    rw [read_eq, source, String.toList_ofList]
    decide +kernel
  have hstatements : statements (source (String.ofList
      ("CREATE TABLE t (".toList ++ wordedBody ++ [')', ';']))) = [("t".toList, wordedBody)] := by
    rw [source, String.toList_ofList]
    decide +kernel
  have hclauses : foreignClauses (pieces wordedBody) = [] := by decide +kernel
  have hreferences := read_ownReferences hread
  rw [hstatements] at hreferences
  obtain ⟨-, hcolumns⟩ := (List.forall₂_cons.1 hreferences).1
  refine ⟨hread, fun c hc => ?_⟩
  obtain ⟨w, hw, hkey, -⟩ := hcolumns c hc
  refine ⟨w, hw, ?_⟩
  rw [hkey, hclauses]
  simp

/-- A name that is the first word of a references clause, and a length that is no number. -/
def mimicBody : List Char := "references VARCHAR(100)".toList

theorem not_plain_mimicBody :
    read .counter (String.ofList ("CREATE TABLE t (".toList ++ mimicBody ++ [')', ';'])) =
      .ok ⟨[⟨TableId.ofNumber 1, "t", "",
        [⟨"references", "varchar", some 100, true, false, false, true, Reference.unset⟩]⟩], [],
        [⟨"t", "references", ⟨"VARCHAR", "100"⟩⟩]⟩ ∧
    pieces mimicBody = [mimicBody] ∧ foreignClauses (pieces mimicBody) = [] ∧
    definition? mimicBody = some ⟨"references".toList, "VARCHAR".toList, some "100".toList, []⟩ ∧
    inlineTarget? false [] = none := by
  rw [read_eq, source, String.toList_ofList]
  decide +kernel

end SchemaDesign.Ddl
