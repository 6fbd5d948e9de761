import SchemaDesign.Proofs.Ddl.Comment
import SchemaDesign.Proofs.Ddl.Cut
import SchemaDesign.Proofs.Ddl.Legible

/-! A statement with one column whose length is given in decimal digits. It can be read exactly if they
are not too many. -/
namespace SchemaDesign.Ddl
open Text

def sizedLine (digits : List Char) : List Char :=
  'a' :: ' ' :: ("varchar".toList ++ '(' :: (digits ++ [')']))

def sizedText (digits : List Char) : String :=
  String.ofList (opening ++ ("t".toList ++ ' ' :: '(' :: (sizedLine digits ++ [')'])))

/-- What a line of that kind defines. -/
def sizedDefinition (digits : List Char) : Definition :=
  ⟨"a".toList, "varchar".toList, some digits, []⟩

variable {digits : List Char}

theorem isDecimal_plain {c : Char} (h : isDecimal c = true) : isFlat c = true ∧ isInert c = true := by
  have hall : ∀ n ∈ List.range' 48 10,
      isFlat (Char.ofNat n) = true ∧ isInert (Char.ofNat n) = true := by decide
  obtain ⟨n, hn, rfl⟩ := ofNat_mem_codes (List.contains_iff_mem.1 h)
  exact hall n hn

theorem definition?_sizedLine (h : ∀ c ∈ digits, isDecimal c = true) :
    definition? (sizedLine digits) = some (sizedDefinition digits) := by
  have hinside : ∀ c ∈ digits, (c != ')') = true := fun c hc =>
    bne_iff_ne.2 (isFlat_spec (isDecimal_plain (h c hc)).1).2.1
  have hclose : Stops (· != ')') [')'] := stops_cons.2 (by decide)
  obtain ⟨htake, hdrop⟩ := takeWhile_append_stop hinside hclose
  have htrim : trim digits = digits := trim_of_forall fun c hc => (isDecimal_spec (h c hc)).2.2.1
  have hqualifier : qualifier ('(' :: (digits ++ [')'])) = (some digits, []) := by
    have hopen : spacedMark '(' ('(' :: (digits ++ [')'])) = some (digits ++ [')']) := rfl
    simp only [qualifier, hopen, htake, hdrop, htrim]
  have hparts : definition? (sizedLine digits) = some ⟨"a".toList, "varchar".toList,
      (qualifier ('(' :: (digits ++ [')']))).1, (qualifier ('(' :: (digits ++ [')']))).2⟩ := rfl
  rw [hparts, hqualifier]
  rfl

theorem definitions_sizedLine (h : ∀ c ∈ digits, isDecimal c = true) :
    definitions [sizedLine digits] = [sizedDefinition digits] := by
  have hclause : isTableClause (sizedLine digits) = false := rfl
  have hpiece := Piece.ofText_eq_column.2 ⟨hclause, definition?_sizedLine h, rfl⟩
  have hvalid : Validation.isValidName (String.ofList (sizedDefinition digits).name) = true := by
    have hname : (sizedDefinition digits).name = "a".toList := rfl
    rw [hname]
    decide +kernel
  simp only [definitions, List.filterMap_cons, hpiece, Piece.definition?, if_pos hvalid,
    List.filterMap_nil]

theorem balanced_sizedLine (h : ∀ c ∈ digits, isDecimal c = true) : Balanced (sizedLine digits) := by
  have hdigits := balanced_parenthesised fun c hc => (isDecimal_plain (h c hc)).1
  exact (balanced_flat (s := "a varchar".toList) (by decide)).append hdigits

theorem pieces_sizedLine (h : ∀ c ∈ digits, isDecimal c = true) :
    pieces (sizedLine digits) = [sizedLine digits] := by
  have hend : sizedLine digits = ('a' :: ' ' :: ("varchar".toList ++ '(' :: digits)) ++ [')'] := by
    simp [sizedLine]
  have htight : Tight (sizedLine digits) := by
    refine ⟨List.cons_ne_nil _ _, stops_cons.2 (by decide), ?_⟩
    rw [hend, List.reverse_append]
    exact stops_cons.2 (by decide)
  have htrim : trim (sizedLine digits) = sizedLine digits := by
    have := trim_append_blank (b := []) htight (by simp)
    rwa [List.append_nil] at this
  rw [pieces, cutAtCommas_undivided (balanced_sizedLine h).undivided, List.map_singleton, htrim]
  exact List.filter_cons_of_pos (by simp [htight.ne_nil])

theorem source_sizedText (h : ∀ c ∈ digits, isDecimal c = true) :
    source (sizedText digits) = (sizedText digits).toList := by
  have hinert : ∀ c ∈ (sizedText digits).toList, isInert c = true := by
    have hlead : ∀ c ∈ opening ++ "t (a varchar(".toList, isInert c = true := by decide
    have hlast : ∀ c ∈ [')', ')'], isInert c = true := by decide
    have htext : (sizedText digits).toList =
        (opening ++ "t (a varchar(".toList) ++ (digits ++ [')', ')']) := by
      rw [sizedText, String.toList_ofList]
      simp [sizedLine]
    intro c hc
    rw [htext] at hc
    rcases List.mem_append.1 hc with hc | hc
    · exact hlead c hc
    · exact (List.mem_append.1 hc).elim (fun hc => (isDecimal_plain (h c hc)).2) (hlast c)
  have hstar : '*' ∉ (sizedText digits).toList := fun hc => (isInert_spec (hinert _ hc)).2.1 rfl
  have hdash : '-' ∉ (sizedText digits).toList := fun hc => (isInert_spec (hinert _ hc)).2.2 rfl
  exact Uncommented.withoutComments_eq
    ⟨quiet_of_not_has (not_has_of_not_mem hstar), not_has_of_not_mem hdash⟩

theorem statements_sizedText (h : ∀ c ∈ digits, isDecimal c = true) :
    statements (source (sizedText digits)) = [("t".toList, sizedLine digits)] := by
  have hword : Word "t".toList := by decide +kernel
  have hnone : WellFormed [] := fun st hst => absurd hst List.not_mem_nil
  have hone := statements_amid hnone hword (balanced_sizedLine h).closes []
  rw [source_sizedText h, sizedText, String.toList_ofList]
  rw [List.flatMap_nil, List.nil_append, List.nil_append, statements_of_none (s := []) rfl] at hone
  exact hone

theorem overlong_sizedDefinition (h : ∀ c ∈ digits, isDecimal c = true) :
    (sizedDefinition digits).Overlong ↔ maxDigits < digits.length := by
  constructor
  · rintro ⟨ds, hds, -, hlong⟩
    obtain rfl : digits = ds := Option.some.inj hds
    exact hlong
  · exact fun hlong => ⟨digits, rfl, fun c hc => (isDecimal_spec (h c hc)).1, hlong⟩

/-- Only the number of its digits decides whether the length can be read. -/
theorem readable_sizedText (h : ∀ c ∈ digits, isDecimal c = true) :
    Readable (sizedText digits) ↔ digits.length ≤ maxDigits := by
  have hlegible : Legible [sizedDefinition digits] ↔ ¬ (sizedDefinition digits).Overlong := by
    have hnil : Legible [] := fun before d after he => by simp at he
    have hone : Legible ([] ++ [sizedDefinition digits]) ↔ _ := legible_append_singleton
    simpa [hnil] using hone
  unfold Readable
  rw [statements_sizedText h, List.forall_mem_singleton, pieces_sizedLine h, definitions_sizedLine h,
    hlegible, overlong_sizedDefinition h, Nat.not_lt]

/-- One digit more than is read. -/
def overlongText : String := sizedText (List.replicate 4301 '1')

theorem not_readable_overlongText : ¬ Readable overlongText := by
  have hdigits : ∀ c ∈ List.replicate 4301 '1', isDecimal c = true := by
    intro c hc
    rw [List.eq_of_mem_replicate hc]
    decide
  rw [overlongText, readable_sizedText hdigits, List.length_replicate]
  exact of_decide_eq_false rfl

end SchemaDesign.Ddl
