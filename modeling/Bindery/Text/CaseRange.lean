/-!
# Runs of code points that a case mapping shifts alike

The case pairs of an alphabet mostly stand at a constant distance, either side by side or as two
blocks. A `CaseRange` is such a run; a case mapping is a list of them.
-/

namespace Bindery.Text

/-- The code points `first`, `first + step`, … up to `last`, each mapped to itself plus `shift`. -/
structure CaseRange where
  first : Nat
  last : Nat
  step : Nat
  shift : Int
  deriving Repr, DecidableEq

/-- Whether the run holds the code point. -/
def CaseRange.holds (run : CaseRange) (code : Nat) : Bool :=
  run.first ≤ code && code ≤ run.last && (code - run.first) % run.step == 0

/-- The code point that `code` is mapped to: itself, unless one of the runs holds it. -/
def shiftCase (runs : List CaseRange) (code : Nat) : Nat :=
  match runs.find? (·.holds code) with
  | some run => (code + run.shift).toNat
  | none => code

end Bindery.Text
