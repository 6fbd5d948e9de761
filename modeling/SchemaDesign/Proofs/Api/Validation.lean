import SchemaDesign.Api.Body
import SchemaDesign.Api.Standard

/-! Exact validators, of which the standard ones are some: what a column of texts is written as, the model
of a column takes as it is. -/
namespace SchemaDesign.Api

namespace Validators.Exact

variable {v : Validators}

/-- A length needs no preparation, and none is null. -/
theorem read_length (h : v.Exact) (place : List Step) (l : Option Int) :
    prepared blankIsNull (v.nullable v.integer) place (Document.writeOption .int l) = .ok l := by
  cases l with
  | none => exact h.null v.integer place
  | some n => exact h.present v.integer place (.int n) n (by simp [Json.kind]) (h.integer place n)

theorem read_reference (h : v.Exact) (place : List Step) (r : Reference String) :
    referenceModel v place (Document.writeReference (r.map .str)) = .ok r := by
  have htable := h.field (fieldless Reference.mk) "tableId" (some "") v.text place
    (Document.writeReference (r.map .str)) _ _ _ rfl rfl (h.text _ r.tableId)
  exact h.model _ place _ _ (h.field _ "columnName" (some "") v.text place _ _ _ _ htable rfl
    (h.text _ r.columnName))

theorem read_column (h : v.Exact) (place : List Step) (c : Column String) :
    columnModel v place (Document.writeColumn (c.map .str)) = .ok c := by
  have hname := h.field (fieldless column) "name" none v.text place
    (Document.writeColumn (c.map .str)) _ _ _ rfl rfl (h.text _ c.name)
  have htype := h.field _ "type" none v.text place _ _ _ _ hname rfl (h.text _ c.type)
  have hlength := h.field _ "typeLength" (some none) (prepared blankIsNull (v.nullable v.integer)) place
    _ _ _ _ htype rfl (h.read_length _ c.typeLength)
  have hnullable := h.field _ "nullable" (some true) v.flag place _ _ _ _ hlength rfl
    (h.flag _ c.nullable)
  have hunique := h.field _ "unique" (some false) v.flag place _ _ _ _ hnullable rfl
    (h.flag _ c.unique)
  have hprimary := h.field _ "primaryKey" (some false) v.flag place _ _ _ _ hunique rfl
    (h.flag _ c.primaryKey)
  have hforeign := h.field _ "foreignKey" (some false) v.flag place _ _ _ _ hprimary rfl
    (h.flag _ c.foreignKey)
  exact h.model _ place _ _ (h.field _ "references" (some Reference.unset) (referenceModel v) place
    _ _ _ _ hforeign rfl (h.read_reference _ c.references))

end Validators.Exact

theorem exact_standardValidators : standardValidators.Exact where
  text _ _ := rfl
  integer _ _ := rfl
  flag _ _ := rfl
  null _ _ := rfl
  present read place j a hj h := by
    have hread : readNullable read place j = (read place j).map some := by
      cases j <;> first | exact absurd rfl hj | rfl
    exact hread.trans (congrArg (Except.map some) h)
  model read place fields a h := h
  field earlier key default read place j f x a hf hx ha := by
    show readField earlier key default read place j = .ok (f a)
    unfold readField
    rw [hf, hx]
    exact congrArg (Checked.next (.ok f)) ha
  dump _ := rfl

end SchemaDesign.Api
