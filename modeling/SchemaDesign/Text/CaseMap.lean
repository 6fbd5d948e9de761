/-! Case mappings given by arithmetic runs of code points and a list of exceptions. -/
namespace SchemaDesign.Text

/-- `(lo, hi, step, target)` sends `lo, lo + step, …, hi` to `target, target + step, …`. -/
abbrev CaseRun := Nat × Nat × Nat × Nat

/-- The image of a code point under runs in ascending order; a code point in no run stays itself. -/
def shiftCase : List CaseRun → Nat → Nat
  | [], n => n
  | (lo, hi, step, target) :: rest, n =>
      if n < lo then n
      else if n ≤ hi && (n - lo) % step == 0 then target + (n - lo)
      else shiftCase rest n

/-- Exceptions first, then the runs. -/
def expandCase (exceptions : List (Nat × List Nat)) (runs : List CaseRun) (c : Char) : List Char :=
  match exceptions.lookup c.toNat with
  | some codes => codes.map Char.ofNat
  | none => [Char.ofNat (shiftCase runs c.toNat)]

end SchemaDesign.Text
