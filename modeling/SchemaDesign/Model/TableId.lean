/-! Ids of new tables. Where they come from is left open, but for this: none is empty, and none comes
twice. Counting gives such ids. -/
namespace SchemaDesign.TableId

/-- The ids that are still to be given out, in order. -/
structure Supply where
  id : Nat → String
  injective : Function.Injective id
  ne_empty : ∀ n, id n ≠ ""

namespace Supply

def first (ids : Supply) : String := ids.id 0

/-- What is left once so many ids have been given out. -/
def drop (ids : Supply) (count : Nat) : Supply where
  id n := ids.id (n + count)
  injective _ _ h := Nat.add_right_cancel (ids.injective h)
  ne_empty n := ids.ne_empty (n + count)

end Supply

/-! Counted ids: the number can be read off the digits again. -/

/-- The hexadecimal digits of a number, most significant first. -/
def digits (n : Nat) : List Char :=
  if n < 16 then [Nat.digitChar n] else digits (n / 16) ++ [Nat.digitChar (n % 16)]
termination_by n
decreasing_by omega

/-- At least 32 digits behind a fixed word. -/
def ofNumber (n : Nat) : String :=
  "table-" ++ String.ofList (List.replicate (32 - (digits n).length) '0' ++ digits n)

/-- The value of a hexadecimal digit. -/
def digitValue (c : Char) : Nat := if c.toNat < 58 then c.toNat - 48 else c.toNat - 87

def value (s : List Char) : Nat := s.foldl (fun v c => 16 * v + digitValue c) 0

theorem digitValue_digitChar : ∀ n < 16, digitValue (Nat.digitChar n) = n := by decide

theorem value_append_singleton (s : List Char) (c : Char) :
    value (s ++ [c]) = 16 * value s + digitValue c := by
  simp [value, List.foldl_append]

theorem value_digits (n : Nat) : value (digits n) = n := by
  fun_induction digits n with
  | case1 n h => simpa [value] using digitValue_digitChar n h
  | case2 n h ih =>
    rw [value_append_singleton, ih, digitValue_digitChar _ (Nat.mod_lt _ (by decide))]
    omega

theorem value_replicate_append (k : Nat) (s : List Char) :
    value (List.replicate k '0' ++ s) = value s := by
  induction k with
  | zero => rfl
  | succ k ih =>
    have h0 : value (List.replicate (k + 1) '0' ++ s) = value (List.replicate k '0' ++ s) := rfl
    rw [h0, ih]

theorem ofNumber_injective : Function.Injective ofNumber := by
  intro m n h
  have h : "table-".toList ++ (List.replicate (32 - (digits m).length) '0' ++ digits m) =
      "table-".toList ++ (List.replicate (32 - (digits n).length) '0' ++ digits n) := by
    simpa [ofNumber] using congrArg String.toList h
  have hv := congrArg value (List.append_cancel_left h)
  rwa [value_replicate_append, value_replicate_append, value_digits, value_digits] at hv

theorem ofNumber_ne_empty (n : Nat) : ofNumber n ≠ "" := by
  intro h
  have := congrArg String.toList h
  simp [ofNumber] at this

/-- The numbers from one on. -/
def Supply.counter : Supply where
  id n := ofNumber (n + 1)
  injective _ _ h := Nat.succ.inj (ofNumber_injective h)
  ne_empty n := ofNumber_ne_empty (n + 1)

end SchemaDesign.TableId
