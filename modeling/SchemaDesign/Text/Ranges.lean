/-! Character classes given by ranges of code points. -/
namespace SchemaDesign.Text

/-- Inclusive ranges of code points, disjoint and in ascending order. -/
abbrev Ranges := List (Nat × Nat)

/-- Stops at the first range that begins above `n`, which ascending order makes the last to look at. -/
def Ranges.covers : Ranges → Nat → Bool
  | [], _ => false
  | (lo, hi) :: rest, n => if n < lo then false else n ≤ hi || Ranges.covers rest n

end SchemaDesign.Text
