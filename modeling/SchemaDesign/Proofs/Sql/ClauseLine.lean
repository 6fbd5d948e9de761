import SchemaDesign.Proofs.Ddl.Clause
import SchemaDesign.Proofs.Sql.Lines

/-! What the lines of keys and references are read as: themselves, if the names in them are words.
In any case they are no columns. -/
namespace SchemaDesign.Export.Sql
open Ddl Text

variable {key column table target : List Char}

theorem constraintName_of_stops {s : List Char} (h : Stops (sameLetter 'C') s) :
    constraintName s = none := by
  have hk : keyword "CONSTRAINT".toList s = none := keyword_of_stops (l := 'C') h
  simp only [constraintName, hk, Option.bind_eq_bind, Option.bind_none]

theorem phrase_keyLead (s : List Char) :
    phrase ["PRIMARY".toList, "KEY".toList] (keyLead ++ ' ' :: s) = some (' ' :: s) :=
  phrase_two_self (w := "PRIMARY".toList) (v := "KEY".toList) (stops_cons.2 (by decide))

theorem phrase_linkLead (s : List Char) :
    phrase ["FOREIGN".toList, "KEY".toList] (linkLead ++ ' ' :: s) = some (' ' :: s) :=
  phrase_two_self (w := "FOREIGN".toList) (v := "KEY".toList) (stops_cons.2 (by decide))

theorem phrase_key_linkLead (s : List Char) :
    phrase ["PRIMARY".toList, "KEY".toList] (linkLead ++ ' ' :: s) = none := by
  have hk : keyword "PRIMARY".toList (linkLead ++ ' ' :: s) = none :=
    keyword_of_stops (l := 'P') (stops_cons.2 (by decide))
  simp only [phrase, hk, Option.bind_eq_bind, Option.bind_none]

theorem constraintName_keyLead (s : List Char) : constraintName (keyLead ++ s) = none :=
  constraintName_of_stops (stops_cons.2 (by decide))

theorem constraintName_linkLead (s : List Char) : constraintName (linkLead ++ s) = none :=
  constraintName_of_stops (stops_cons.2 (by decide))

theorem wordEnds_space (s : List Char) : wordEnds (' ' :: s) = true :=
  wordEnds_of_stops (stops_cons.2 (by decide +kernel))

theorem isTableClause_keyLine (key : List Char) : isTableClause (keyLine key) = true := by
  refine isTableClause_of_keyWords ?_
  unfold keyLine
  rw [constraintName_keyLead, Option.getD_none, keyWords, phrase_keyLead, Option.orElse_some,
    Option.any_some]
  exact wordEnds_space _

theorem isTableClause_linkLine (column table target : List Char) :
    isTableClause (linkLine column table target) = true := by
  refine isTableClause_of_keyWords ?_
  unfold linkLine
  rw [constraintName_linkLead, Option.getD_none, keyWords, phrase_key_linkLead, phrase_linkLead,
    Option.orElse_none, Option.any_some]
  exact wordEnds_space _

theorem ofText_keyLine (hk : Word key) : Piece.ofText (keyLine key) = .primaryKey (String.ofList key) := by
  have hclause : primaryKeyClause? (keyLine key) = some (String.ofList key) := by
    unfold keyLine primaryKeyClause?
    rw [constraintName_keyLead, Option.getD_none, phrase_keyLead, Option.bind_eq_bind,
      Option.bind_some, parenthesisedName_space hk]
    rfl
  unfold Piece.ofText
  rw [hclause]

theorem ofText_linkLine (hc : Word column) (ht : Word table) (hr : Word target) :
    Piece.ofText (linkLine column table target) =
      .foreignKey (String.ofList column) ⟨String.ofList table, String.ofList target⟩ := by
  have hnone : primaryKeyClause? (linkLine column table target) = none := by
    unfold linkLine primaryKeyClause?
    rw [constraintName_linkLead, Option.getD_none, phrase_key_linkLead]
    rfl
  have hclause : Ddl.foreignKeyClause? (linkLine column table target) =
      some (String.ofList column, ⟨String.ofList table, String.ofList target⟩) := by
    have hskip : skipBlanks (' ' :: (targetLead ++ (table ++ '(' :: (target ++ [')'])))) =
        targetLead ++ (table ++ '(' :: (target ++ [')'])) :=
      skipBlanks_space (stops_cons.2 (by decide))
    have hrefs : referencesClause? (targetLead ++ (table ++ '(' :: (target ++ [')']))) =
        some ⟨String.ofList table, String.ofList target⟩ := referencesClause?_self ht hr
    unfold linkLine Ddl.foreignKeyClause?
    simp only [constraintName_linkLead, Option.getD_none, phrase_linkLead, Option.bind_eq_bind,
      Option.bind_some, parenthesisedName_space hc, hskip, hrefs, Option.pure_def]
  unfold Piece.ofText
  rw [hnone, hclause]

end SchemaDesign.Export.Sql
