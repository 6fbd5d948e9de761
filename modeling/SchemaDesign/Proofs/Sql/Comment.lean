import SchemaDesign.Proofs.Ddl.Inside
import SchemaDesign.Proofs.Sql.Reread

/-! Comments in the SQL of a schema. The first one can only begin in the name of a column, where
that name is written for the first time. -/
namespace SchemaDesign.Export.Sql
open Ddl Text

variable {ts us : List (Table String)} {t : Table String} {c : Column String} {P : List Char → Prop}

theorem isInert_of_isWord {c : Char} (h : isWord c = true) : isInert c = true := by
  cases hi : isInert c with
  | true => rfl
  | false =>
    have hi : c = '/' ∨ c = '*' ∨ c = '-' := by
      simp only [isInert, Bool.and_eq_false_iff, bne_eq_false_iff_eq] at hi
      rwa [or_assoc] at hi
    rcases hi with rfl | rfl | rfl <;> exact absurd h (by decide +kernel)

theorem Word.inert {s : List Char} (h : Word s) : ∀ c ∈ s, isInert c = true := fun c hc =>
  isInert_of_isWord (h.2 c hc)

theorem isInert_of_isTypeChar {c : Char} (h : isTypeChar c = true) : isInert c = true := by
  have hall : ∀ n ∈ typeCodes, isInert (Char.ofNat n) = true := by decide
  obtain ⟨n, hn, rfl⟩ := ofNat_mem_codes (List.contains_iff_mem.1 h)
  exact hall n hn

theorem flagChars_inert (notNull unique : Bool) : ∀ c ∈ flagChars notNull unique, isInert c = true := by
  cases notNull <;> cases unique <;> decide

theorem columnTail_inert (h : c.Printable) : ∀ ch ∈ columnTail c, isInert ch = true := by
  unfold columnTail
  intro ch hch
  rcases List.mem_append.1 hch with hch | hch
  · obtain ⟨hl, -⟩ | ⟨k, -, -, hl⟩ := h.lengthChars_eq
    · rw [hl] at hch
      cases hch
    · rw [hl] at hch
      rcases List.mem_cons.1 hch with rfl | hch
      · decide
      · rcases List.mem_append.1 hch with hch | hch
        · exact isInert_of_isWord (isDecimal_spec (decimal_isDecimal k ch hch)).2.1
        · rw [List.mem_singleton.1 hch]
          decide
  · exact flagChars_inert _ _ ch hch

section Laws

variable (hP : Blind P)

include hP

theorem keeps_columnLine (h : c.Printable) (hname : Keeps P (c.name.toList ++ [' '])) :
    Keeps P (columnLine c) := by
  have htype : Keeps P c.type.toList := hP.keeps fun ch hch => isInert_of_isTypeChar (h.type_chars ch hch)
  have hline := hname.append (htype.append (hP.keeps (columnTail_inert h)))
  rw [columnLine_eq h]
  simpa only [List.append_assoc, List.singleton_append] using hline

theorem keeps_keyLine {key : List Char} (hname : Keeps P (key ++ [')'])) : Keeps P (keyLine key) := by
  have hlead : Keeps P (keyLead ++ [' ', '(']) := hP.keeps (by decide)
  have hline := hlead.append hname
  simpa only [keyLine, List.append_assoc, List.cons_append, List.nil_append] using hline

theorem keeps_linkLine {column table target : List Char} (hname : Keeps P (column ++ [')']))
    (ht : Word table) (hr : Word target) : Keeps P (linkLine column table target) := by
  have hlead : Keeps P (linkLead ++ [' ', '(']) := hP.keeps (by decide)
  have htable : Keeps P ([' '] ++ targetLead ++ table ++ ['(']) := hP.keeps (by
    rw [List.forall_mem_append, List.forall_mem_append]
    exact ⟨⟨by decide, Word.inert ht⟩, by decide⟩)
  have htarget : Keeps P (target ++ [')']) := hP.keeps (by
    rw [List.forall_mem_append]
    exact ⟨Word.inert hr, by decide⟩)
  have hline := ((hlead.append hname).append htable).append htarget
  simpa only [linkLine, List.append_assoc, List.cons_append, List.nil_append] using hline

theorem keeps_clauses (h : Printable ts) (ht : t ∈ ts)
    (hkey : ∀ k, t.primaryKey = some k → Keeps P (k.toList ++ [')']))
    (hlinks : ∀ c ∈ t.columns, (c.target? ts).isSome = true → Keeps P (c.name.toList ++ [')'])) :
    ∀ l ∈ keyLines t ++ linkLines ts t, Keeps P l := by
  intro l hl
  rcases List.mem_append.1 hl with hl | hl
  · rw [h.keyLines_eq ht] at hl
    obtain ⟨k, hk, rfl⟩ := List.mem_map.1 hl
    exact keeps_keyLine hP (hkey k (Option.mem_toList.1 hk))
  · obtain ⟨c, hc, d, hd, rfl⟩ := mem_linkLines.1 hl
    exact keeps_linkLine hP (hlinks c hc (by rw [hd]; rfl))
      (h.names d (Column.target?_eq_some hd).2.1) (h.targets t ht c hc d hd).2

theorem keeps_layBefore {ls : List (List Char)} (h : ∀ l ∈ ls, Keeps P l) : Keeps P (layBefore ls) := by
  induction ls with
  | nil => exact keeps_nil
  | cons l ls ih =>
    have hbreak : Keeps P [',', '\n'] := hP.keeps (by decide)
    rw [layBefore, List.flatMap_cons]
    exact ((hP.keeps (by decide)).append ((h l List.mem_cons_self).append hbreak)).append
      (ih fun m hm => h m (List.mem_cons_of_mem _ hm))

theorem keeps_layLines {ls : List (List Char)} (h : ∀ l ∈ ls, Keeps P l) : Keeps P (layLines ls) := by
  have hindent : Keeps P indent := hP.keeps (by decide)
  fun_induction layLines ls with
  | case1 => exact keeps_nil
  | case2 l => exact hindent.append (h l List.mem_cons_self)
  | case3 l m ls ih =>
    have hbreak : Keeps P [',', '\n'] := hP.keeps (by decide)
    have hrest := ih fun n hn => h n (List.mem_cons_of_mem _ hn)
    exact hindent.append ((h l List.mem_cons_self).append (hbreak.append hrest))

theorem keeps_layAfter {ls : List (List Char)} (h : ∀ l ∈ ls, Keeps P l) : Keeps P (layAfter ls) := by
  have hbreak : Keeps P [',', '\n'] := hP.keeps (by decide)
  cases ls with
  | nil => exact keeps_nil
  | cons l ls => exact hbreak.append (keeps_layLines hP h)

end Laws

/-- The names in a table keep a law where they are written. -/
structure Written (P : List Char → Prop) (ts : List (Table String)) (t : Table String) : Prop where
  columns : ∀ c ∈ t.columns, Keeps P (c.name.toList ++ [' '])
  key : ∀ k, t.primaryKey = some k → Keeps P (k.toList ++ [')'])
  links : ∀ c ∈ t.columns, (c.target? ts).isSome = true → Keeps P (c.name.toList ++ [')'])

theorem written_of_columns
    (h : ∀ c ∈ t.columns, ∀ ch, isInert ch = true → Keeps P (c.name.toList ++ [ch])) :
    Written P ts t where
  columns := fun c hc => h c hc ' ' (by decide)
  key := by
    intro k hk
    obtain ⟨c, hc, -, rfl⟩ := mem_of_primaryKey hk
    exact h c hc ')' (by decide)
  links := fun c hc _ => h c hc ')' (by decide)

/-- The statements of some tables. -/
def statementsText (ts us : List (Table String)) : List Char :=
  (us.map fun t => (t.name.toList, bodyChars ts t)).flatMap statementText

theorem keeps_bodyChars (hP : Blind P) (h : Printable ts) (ht : t ∈ ts) (hw : Written P ts t) :
    Keeps P (bodyChars ts t) := by
  have hbreak : Keeps P ['\n'] := hP.keeps (by decide)
  refine hbreak.append ((keeps_layLines hP fun l hl => ?_).append hbreak)
  rw [lines_eq_append] at hl
  rcases List.mem_append.1 hl with hl | hl
  · obtain ⟨c, hc, rfl⟩ := List.mem_map.1 hl
    exact keeps_columnLine hP (h.columns t ht c hc) (hw.columns c hc)
  · exact keeps_clauses hP h ht hw.key hw.links l hl

theorem keeps_statementsText (hP : Blind P) (h : Printable ts) (hus : ∀ t ∈ us, t ∈ ts)
    (hw : ∀ t ∈ us, Written P ts t) : Keeps P (statementsText ts us) := by
  unfold statementsText
  induction us with
  | nil => exact keeps_nil
  | cons u us ih =>
    have hu := hus u List.mem_cons_self
    have hname : Keeps P (opening ++ u.name.toList ++ [' ', '(']) := hP.keeps (by
      rw [List.forall_mem_append, List.forall_mem_append]
      exact ⟨⟨by decide, Word.inert (h.names u hu)⟩, by decide⟩)
    have hbody := keeps_bodyChars hP h hu (hw u List.mem_cons_self)
    have hend : Keeps P (')' :: ending) := hP.keeps (by decide)
    have hrest := ih (fun t ht => hus t (List.mem_cons_of_mem _ ht))
      fun t ht => hw t (List.mem_cons_of_mem _ ht)
    have hall := ((hname.append hbody).append hend).append hrest
    rw [List.map_cons, List.flatMap_cons]
    simpa only [statementText, List.append_assoc, List.cons_append, List.nil_append] using hall

end SchemaDesign.Export.Sql
