import SchemaDesign.Proofs.Ddl.Semicolon
import SchemaDesign.Proofs.Ddl.Spelling
import SchemaDesign.Proofs.Ddl.Trace

/-! What becomes of a column name in quotes. One without white space is taken as it is; of any other one
the quotes are as good as not there, so it is refused unless it reads as a column on its own. -/
namespace SchemaDesign.Ddl
open Text

/-- A name in quotes, white space, a type of letters, and the tail, which no letter begins. -/
structure Quoted where
  mark : Char
  name : List Char
  space : List Char
  type : List Char
  tail : List Char
  mark_quote : isQuote mark = true
  name_ne_nil : name ≠ []
  name_chars : ∀ c ∈ name, isQuote c = false ∧ isFlat c = true
  space_ne_nil : space ≠ []
  space_blank : ∀ c ∈ space, isBlank c = true
  type_ne_nil : type ≠ []
  type_letters : ∀ c ∈ type, isLetter c = true
  tail_stops : Stops isLetter tail

def Definition.nameAndType (d : Definition) : List Char × List Char := (d.name, d.type)

theorem map_nameAndType (s : List Char) :
    (definition? s).map Definition.nameAndType =
      (run isNameChar (skipQuote s)).bind fun n =>
        (gap (skipQuote n.2)).bind fun t => (run isLetter t).map fun y => (n.1, y.1) := by
  unfold definition?
  cases run isNameChar (skipQuote s) with
  | none => rfl
  | some n =>
    obtain ⟨name, r⟩ := n
    cases hg : gap (skipQuote r) with
    | none => simp [hg]
    | some t => cases hy : run isLetter t <;> simp [hg, hy, Definition.nameAndType]

/-- No word leads a text that no letter begins, so it is no clause. -/
theorem isTableClause_of_stops {s : List Char} (hs : Stops isLetter s) : isTableClause s = false := by
  have hnone : ∀ w ∈ ["CONSTRAINT", "PRIMARY", "FOREIGN", "UNIQUE", "CHECK", "INDEX", "KEY"],
      keyword w.toList s = none := by
    intro w hw
    have hletters : ∀ w ∈ ["CONSTRAINT", "PRIMARY", "FOREIGN", "UNIQUE", "CHECK", "INDEX", "KEY"],
        (∀ l ∈ w.toList, l.toLower.isAlpha = true) ∧ keyword w.toList [] = none := by decide
    obtain ⟨hw, hnil⟩ := hletters w hw
    have happend := keyword_append_stop (stops_sameLetter hw hs) []
    rwa [List.nil_append, hnil] at happend
  simp only [isTableClause, constraintName, keyWords, uniqueWords, checkWords, indexWords, indexWord, phrase,
    hnone "CONSTRAINT" (by decide), hnone "PRIMARY" (by decide), hnone "FOREIGN" (by decide),
    hnone "UNIQUE" (by decide), hnone "CHECK" (by decide), hnone "INDEX" (by decide),
    hnone "KEY" (by decide), Option.bind_eq_bind, Option.bind_none, Option.orElse_none, Option.any_none,
    Option.isSome_none, Bool.or_self]

namespace Quoted

def text (w : Quoted) : List Char := w.mark :: (w.name ++ w.mark :: (w.space ++ (w.type ++ w.tail)))

theorem isTableClause_text (w : Quoted) : isTableClause w.text = false :=
  isTableClause_of_stops (stops_cons.2 (isLetter_of_not_isWord (isWord_of_isQuote w.mark_quote)))

/-- A name without white space is taken from between its quotes. -/
theorem definition?_text_of_solid (w : Quoted) (hsolid : ∀ c ∈ w.name, isBlank c = false) :
    (definition? w.text).map Definition.nameAndType = some (w.name, w.type) := by
  have hmark : ∀ c ∈ some w.mark, isQuote c = true := by
    intro c hc
    obtain rfl := Option.some.inj hc
    exact w.mark_quote
  have hchars : ∀ c ∈ w.name, isNameChar c = true := by
    intro c hc
    obtain ⟨hquote, hflat⟩ := w.name_chars c hc
    obtain ⟨hopen, hclose, hcomma⟩ := isFlat_spec hflat
    simp [isNameChar, hsolid c hc, hquote, hopen, hclose, hcomma]
  exact congrArg (Option.map _) (Spelling.definition?_text ⟨some w.mark, w.name, some w.mark, w.space,
    w.type, w.tail, hmark, w.name_ne_nil, hchars, hmark, w.space_ne_nil, w.space_blank, w.type_ne_nil,
    w.type_letters, w.tail_stops⟩)

/-- A name with white space inside is read as if it stood without its quotes. -/
theorem definition?_text_of_blank (w : Quoted) {b : Char} (hb : b ∈ w.name) (hblank : isBlank b = true) :
    (definition? w.text).map Definition.nameAndType =
      (definition? w.name).map Definition.nameAndType := by
  have hopening : skipQuote w.text = w.name ++ w.mark :: (w.space ++ (w.type ++ w.tail)) := by
    simp [text, skipQuote, w.mark_quote]
  have hplain : skipQuote w.name = w.name :=
    skipQuote_of_stops fun c hc => (w.name_chars c (List.mem_of_mem_head? hc)).1
  have hmark := isWord_of_isQuote w.mark_quote
  rw [map_nameAndType, map_nameAndType, hopening, hplain,
    run_append_cons (isNameChar_of_isQuote w.mark_quote)]
  cases hname : run isNameChar w.name with
  | none => rfl
  | some n =>
    obtain ⟨name, r⟩ := n
    obtain ⟨rfl, -, rfl⟩ := run_eq_some.1 hname
    -- the first white space ends the name, and no quote stands there
    have hrest : w.name.dropWhile isNameChar ≠ [] := by
      intro hnil
      have hall := List.dropWhile_eq_nil_iff.1 hnil b hb
      rw [isNameChar_of_isBlank hblank] at hall
      cases hall
    have hstops : Stops isQuote (w.name.dropWhile isNameChar) := fun c hc =>
      (w.name_chars c ((List.dropWhile_suffix _).subset (List.mem_of_mem_head? hc))).1
    simp only [Option.map_some, Option.bind_some, Prod.map, id_eq, skipQuote_of_stops hstops,
      skipQuote_of_stops (Stops.append hrest hstops), gap_append_cons (isBlank_of_isQuote w.mark_quote)]
    cases gap (w.name.dropWhile isNameChar) with
    | none => rfl
    | some t =>
      simp only [Option.map_some, Option.bind_some, run_append_cons (isLetter_of_not_isWord hmark),
        Option.map_map]
      rfl

/-- Only a name with white space inside reads as a column on its own, and that has another name. -/
theorem blank_of_definition? (w : Quoted) {e : Definition} (he : definition? w.name = some e) :
    e.name ≠ w.name ∧ ∃ b ∈ w.name, isBlank b = true := by
  obtain ⟨v, hv, rfl⟩ := Spelling.exists_of_definition? he
  have hblank : ∃ b ∈ w.name, isBlank b = true := by
    obtain ⟨b, hb⟩ := List.exists_mem_of_ne_nil v.space v.space_ne_nil
    refine ⟨b, ?_, v.space_blank b hb⟩
    rw [← hv]
    simp [Spelling.text, Spelling.behind, hb]
  refine ⟨fun hname => ?_, hblank⟩
  obtain ⟨b, hb, hblank⟩ := hblank
  rw [← hname] at hb
  simpa [hblank] using (isNameChar_spec (v.name_chars b hb)).1

/-- What a quoted name is read as: the name and the type behind it, or what the name reads as on its own. -/
theorem of_definition?_text (w : Quoted) {d : Definition} (hd : definition? w.text = some d) :
    d.name = w.name ∧ d.type = w.type ∨
      ∃ e, definition? w.name = some e ∧ e.name = d.name ∧ e.type = d.type := by
  by_cases hsolid : ∀ c ∈ w.name, isBlank c = false
  · have h := w.definition?_text_of_solid hsolid
    rw [hd] at h
    obtain ⟨hname, htype⟩ := Prod.mk.inj (Option.some.inj h)
    exact .inl ⟨hname, htype⟩
  · simp only [not_forall, Bool.not_eq_false] at hsolid
    obtain ⟨b, hb, hblank⟩ := hsolid
    have h := w.definition?_text_of_blank hb hblank
    rw [hd] at h
    obtain ⟨e, he, hsame⟩ := Option.map_eq_some_iff.1 h.symm
    obtain ⟨hname, htype⟩ := Prod.mk.inj hsame
    exact .inr ⟨e, he, hname, htype⟩

end Quoted

/-- A column stems from a piece that stands behind others: the piece defines it, and none of the others
defines its name. -/
def StemsFrom (c : Column String) (before : List (List Char)) (p : List Char) : Prop :=
  ∃ d, (Piece.ofText p).definition? = some d ∧ String.ofList d.name ∉ definedNames before ∧
    c.name = String.ofList d.name

/-- A quoted name is taken whole, with the type behind it, or its piece is reported. -/
structure Quoted.TakenWhole (w : Quoted) (t : Table String) (skipped : List Fragment)
    (before : List (List Char)) : Prop where
  column : ∀ c ∈ t.columns, StemsFrom c before w.text →
    c.name = String.ofList w.name ∧ c.type = String.ofList (lower w.type)
  refused : (∀ c ∈ t.columns, ¬ StemsFrom c before w.text) →
    ∃ reason, ⟨String.ofList w.text, reason⟩ ∈ skipped

section Table

variable {q : Pending} {id : String} {st : List Char × List Char} {b : Body}
  {before after : List (List Char)} {p : List Char} {c : Column String} {d : Definition}

theorem nodup_columnNames_resolveTable (h : q.ReadFrom id st b) (batch : List Pending) :
    (resolveTable batch q).columnNames.Nodup := by
  have hcolumns : q.table.columns = PrimaryKey.normalise b.primaryKey b.columns := by rw [h.table]
  rw [resolveTable_columnNames, Table.columnNames, hcolumns]
  exact ((Body.fresh_ofPieces h.pieces).keyed b.primaryKey).names_nodup

theorem type_of_stemsFrom (h : q.ReadFrom id st b) (batch : List Pending)
    (hps : pieces st.2 = before ++ p :: after) (hc : c ∈ (resolveTable batch q).columns)
    (hstems : StemsFrom c before p) :
    ∃ d, definition? p = some d ∧ c.name = String.ofList d.name ∧
      c.type = String.ofList (lower d.type) := by
  obtain ⟨d, hd, hfree, hname⟩ := hstems
  obtain ⟨e, he, hename, htype, -⟩ := exists_column h batch hps hd hfree
  obtain rfl : c = e :=
    List.inj_on_of_nodup_map (nodup_columnNames_resolveTable h batch) hc he (hname.trans hename.symm)
  exact ⟨d, (Piece.definition?_ofText.1 hd).2.1, hname, htype⟩

/-- A piece that is no clause of the table gives a column or is reported. -/
theorem stemsFrom_or_refused (h : q.ReadFrom id st b) (batch : List Pending)
    (hps : pieces st.2 = before ++ p :: after) (hclause : isTableClause p = false) :
    (∃ c ∈ (resolveTable batch q).columns, StemsFrom c before p) ∨
      ∃ reason, ⟨String.ofList p, reason⟩ ∈ bodyFragments (String.ofList st.1) (pieces st.2) := by
  cases hrefusal : refusal? (definedNames before) p with
  | some reason =>
    rw [hps]
    exact .inr ⟨reason, List.mem_append_left _ (mem_refusals hrefusal)⟩
  | none =>
    cases hp : Piece.ofText p with
    | column d inlined =>
      obtain ⟨hd, hfree⟩ := of_refusal?_eq_none hp hrefusal
      obtain ⟨c, hc, hname, -⟩ := exists_column h batch hps hd hfree
      exact .inl ⟨c, hc, d, hd, hfree, hname⟩
    | primaryKey name =>
      rw [isTableClause_of_primaryKeyClause? (Piece.ofText_eq_primaryKey hp)] at hclause
      cases hclause
    | foreignKey name target =>
      rw [isTableClause_of_foreignKeyClause? (Piece.ofText_eq_foreignKey hp)] at hclause
      cases hclause
    | unsupported => simp [refusal?, hp] at hrefusal
    | unrecognised => simp [refusal?, hp] at hrefusal

/-- A quoted name is taken whole, or reported, unless it reads as the definition of a valid and new column
on its own. -/
theorem Quoted.takenWhole_iff (w : Quoted) (h : q.ReadFrom id st b) (batch : List Pending)
    (hps : pieces st.2 = before ++ w.text :: after) {skipped : List Fragment}
    (hskipped : bodyFragments (String.ofList st.1) (pieces st.2) ⊆ skipped) :
    w.TakenWhole (resolveTable batch q) skipped before ↔
      ∀ e, definition? w.name = some e →
        Validation.isValidName (String.ofList e.name) = false ∨
          String.ofList e.name ∈ definedNames before := by
  constructor
  · intro hwhole e he
    by_contra hcon
    obtain ⟨hvalid, hfree⟩ := not_or.1 hcon
    obtain ⟨hne, bl, hbl, hblank⟩ := w.blank_of_definition? he
    -- the piece then gives the column that the name reads as
    have hsame := w.definition?_text_of_blank hbl hblank
    rw [he] at hsame
    obtain ⟨d, hd, hde⟩ := Option.map_eq_some_iff.1 hsame
    have hname : d.name = e.name := (Prod.mk.inj hde).1
    have hdefines : (Piece.ofText w.text).definition? = some d :=
      Piece.definition?_ofText.2 ⟨w.isTableClause_text, hd, by rw [hname]; simpa using hvalid⟩
    rw [← hname] at hfree hne
    obtain ⟨c, hc, hcname, -⟩ := exists_column h batch hps hdefines hfree
    have hwhole := (hwhole.column c hc ⟨d, hdefines, hfree, hcname⟩).1
    exact hne (String.ofList_inj.1 (hcname.symm.trans hwhole))
  · intro hcond
    constructor
    · intro c hc hstems
      obtain ⟨d, hd, hname, htype⟩ := type_of_stemsFrom h batch hps hc hstems
      rcases w.of_definition?_text hd with ⟨hdname, hdtype⟩ | ⟨e, he, hename, -⟩
      · rw [← hdname, ← hdtype]
        exact ⟨hname, htype⟩
      · obtain ⟨d', hd', hfree, -⟩ := hstems
        obtain ⟨-, hd'', hvalid⟩ := Piece.definition?_ofText.1 hd'
        obtain rfl := Option.some.inj (hd''.symm.trans hd)
        rcases hcond e he with hinvalid | htaken
        · rw [hename, hvalid] at hinvalid
          cases hinvalid
        · rw [hename] at htaken
          exact absurd htaken hfree
    · intro hnone
      rcases stemsFrom_or_refused h batch hps w.isTableClause_text with hgiven | ⟨reason, hmem⟩
      · obtain ⟨c, hc, hstems⟩ := hgiven
        exact absurd hstems (hnone c hc)
      · exact ⟨reason, hskipped hmem⟩

end Table

/-- What becomes of a quoted name in a text that is read: every piece that begins with one gives a column of
that whole name and the type behind it or is reported, exactly unless the name reads as the definition of a
column on its own, which is valid and which no piece before defines. -/
theorem read_quotedNames {ids : TableId.Supply} {text : String} {r : Report} (h : read ids text = .ok r) :
    List.Forall₂ (fun st t => t.name = String.ofList st.1 ∧
        ∀ before (w : Quoted) after, pieces st.2 = before ++ w.text :: after →
          (w.TakenWhole t r.skipped before ↔ ∀ e, definition? w.name = some e →
            Validation.isValidName (String.ofList e.name) = false ∨
              String.ofList e.name ∈ definedNames before))
      (statements (source text)) r.tables := by
  obtain ⟨batch, skipped, hb, hr, hs⟩ := read_eq_ok h
  rw [hr, List.forall₂_map_right_iff]
  apply (forall₂_with_mem (readStatements_eq_ok hb).2).imp
  rintro st q ⟨hst, b, hread⟩
  have hskipped : bodyFragments (String.ofList st.1) (pieces st.2) ⊆ r.skipped := by
    rw [hs, readStatements_fragments hb]
    exact fun _ hmem => List.mem_append_right _ (List.mem_flatMap.2 ⟨st, hst, hmem⟩)
  refine ⟨by rw [resolveTable_name, hread.table], fun before w after hps => ?_⟩
  exact w.takenWhole_iff hread batch hps hskipped

/-- A name without white space, in quotes. -/
def solidName : Quoted :=
  ⟨'\x60', "id".toList, [' '], "INT".toList, [], by decide, by decide, by decide, by decide, by decide,
    by decide, by decide, stops_nil _⟩

/-- A name that reads as a column called `2nd`, which is not valid. -/
def spacedName : Quoted :=
  ⟨'\x60', "2nd name".toList, [' '], "TEXT".toList, [], by decide, by decide, by decide, by decide,
    by decide, by decide, by decide, stops_nil _⟩

def quotedBody : List Char := solidName.text ++ ',' :: spacedName.text

def quotedTable : Table String :=
  ⟨TableId.ofNumber 1, "t", "", [⟨"id", "int", none, true, false, false, false, Reference.unset⟩]⟩

def quotedFragment : Fragment := ⟨String.ofList spacedName.text, .invalidName "2nd"⟩

theorem read_quotedNames_quotedTable :
    read .counter (String.ofList ("CREATE TABLE t (".toList ++ quotedBody ++ [')', ';'])) =
      .ok ⟨[quotedTable], [quotedFragment], []⟩ ∧
    solidName.TakenWhole quotedTable [quotedFragment] [] ∧
    spacedName.TakenWhole quotedTable [quotedFragment] [solidName.text] := by
  have hread : read .counter (String.ofList ("CREATE TABLE t (".toList ++ quotedBody ++ [')', ';'])) =
      .ok ⟨[quotedTable], [quotedFragment], []⟩ := by
    rw [read_eq, source, String.toList_ofList]
    decide +kernel
  have hstatements : statements (source (String.ofList
      ("CREATE TABLE t (".toList ++ quotedBody ++ [')', ';']))) = [("t".toList, quotedBody)] := by
    rw [source, String.toList_ofList]
    decide +kernel
  have hpieces : pieces quotedBody = [solidName.text, spacedName.text] := by decide +kernel
  have hsolid : definition? solidName.name = none := by decide +kernel
  have hspaced : definition? spacedName.name = some ⟨"2nd".toList, "name".toList, none, []⟩ := by
    decide +kernel
  have hquoted := read_quotedNames hread
  rw [hstatements] at hquoted
  obtain ⟨-, hwhole⟩ := (List.forall₂_cons.1 hquoted).1
  refine ⟨hread, (hwhole [] solidName [spacedName.text] hpieces).2 ?_,
    (hwhole [solidName.text] spacedName [] hpieces).2 ?_⟩
  · intro e he
    rw [hsolid] at he
    cases he
  · intro e he
    rw [hspaced] at he
    cases he
    exact .inl (by decide +kernel)

/-- A name that reads as a column `first` of type `name`. -/
def splitName : Quoted :=
  ⟨'\x60', "first name".toList, [' '], "varchar".toList, ['(', '5', '0', ')'], by decide, by decide,
    by decide, by decide, by decide, by decide, by decide, stops_cons.2 (by decide)⟩

theorem not_takenWhole_splitName :
    read .counter (String.ofList ("CREATE TABLE t (".toList ++ splitName.text ++ [')', ';'])) =
      .ok ⟨[⟨TableId.ofNumber 1, "t", "",
        [⟨"first", "name", none, true, false, false, false, Reference.unset⟩]⟩], [], []⟩ ∧
    pieces splitName.text = [splitName.text] ∧
    ¬ splitName.TakenWhole ⟨TableId.ofNumber 1, "t", "",
        [⟨"first", "name", none, true, false, false, false, Reference.unset⟩]⟩ [] [] := by
  have hread : read .counter (String.ofList ("CREATE TABLE t (".toList ++ splitName.text ++ [')', ';'])) =
      .ok ⟨[⟨TableId.ofNumber 1, "t", "",
        [⟨"first", "name", none, true, false, false, false, Reference.unset⟩]⟩], [], []⟩ := by
    rw [read_eq, source, String.toList_ofList]
    decide +kernel
  refine ⟨hread, by decide +kernel, fun hwhole => ?_⟩
  have hd : (Piece.ofText splitName.text).definition? =
      some ⟨"first".toList, "name".toList, none, "\x60 varchar(50)".toList⟩ := by
    decide +kernel
  have hcolumn := hwhole.column _ List.mem_cons_self ⟨_, hd, List.not_mem_nil, rfl⟩
  exact absurd hcolumn.1 (by decide +kernel)

end SchemaDesign.Ddl
