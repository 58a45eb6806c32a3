import Readout.DistributionTable

/-!
# Rankings

The most frequent outcomes of a table, the highest count first. Equal counts stand in ascending
order of their keys, so a ranking does not depend on chance.
-/

namespace Readout

/-- An outcome with its place in a ranking, counted from one. -/
structure RankedEntry where
  rank : Nat
  key : Bitstring
  count : Nat
  /-- The sum of all counts of the table. -/
  total : Nat
  deriving DecidableEq

/-- The recorded share of the outcome. -/
def RankedEntry.probability (α : Type) [Arithmetic α] (e : RankedEntry) : α :=
  Arithmetic.share α e.count e.total

namespace DistributionTable

/-- Whether one entry may stand before another: by higher count, then by lower key. -/
def ranksBefore (a b : Bitstring × Nat) : Bool :=
  ((compare b.2 a.2).then (compare a.1 b.1)).isLE

/-- The length of a ranking where none is asked for. -/
def defaultRankingLength : Nat := 10

/-- The `n` most frequent entries. -/
def ranking (t : DistributionTable) (n : Nat) : List RankedEntry :=
  ((t.entries.mergeSort ranksBefore).take n).zipIdx.map fun (e, i) =>
    ⟨i + 1, e.1, e.2, t.total⟩

end DistributionTable

end Readout
