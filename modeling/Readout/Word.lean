import Readout.Naturals

/-!
# Words

Counts, positions and indices are held in 64-bit words. Within a word the numbers are exact; a sum
that would leave it is either refused or held at the largest word.
-/

namespace Readout

/-- The largest 64-bit word. -/
def maxWord : Nat := 2 ^ 64 - 1

/-- A sum held at the largest word. -/
def saturate (n : Nat) : Nat := min n maxWord

theorem saturate_le (n : Nat) : saturate n ≤ maxWord := Nat.min_le_right n maxWord

theorem saturate_of_le {n : Nat} (h : n ≤ maxWord) : saturate n = n := Nat.min_eq_left h

end Readout
