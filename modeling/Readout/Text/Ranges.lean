/-!
# Ranges of characters

A property of characters is kept as a list of inclusive ranges of code points, ascending and apart.
-/

namespace Readout.Text

/-- Whether a code point lies in one of the inclusive ranges. -/
def inRanges (ranges : List (Nat × Nat)) (code : Nat) : Bool :=
  ranges.any fun r => r.1 ≤ code && code ≤ r.2

end Readout.Text
