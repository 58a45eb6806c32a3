import Readout.Sampling

/-!
# Goodness of fit

Pearson's statistic of observed outcomes against the proportions of a table. An outcome that was
observed though the table gives it no count is impossible under the table; that verdict is kept
apart from every number.
-/

namespace Readout

/-- How well observed outcomes fit a table. -/
inductive Fit (α : Type)
  /-- An outcome was observed that the table gives no count. -/
  | impossible
  | statistic (value : α)
  deriving DecidableEq

/-- The statistic as a double; infinity stands for the impossible. -/
def Fit.toFloat : Fit Float → Float
  | impossible => 1.0 / 0.0
  | statistic value => value

/-- The term of one outcome: the square of the difference over the number expected. -/
def fitTerm (α : Type) [Arithmetic α] (t : DistributionTable) (shots count seen : Nat) : α :=
  let expected : α := Arithmetic.ofNat shots * Arithmetic.share α count t.total
  let difference : α := Arithmetic.ofNat seen - expected
  difference * difference / expected

/-- Pearson's chi-squared statistic; zero where nothing was observed. -/
def chiSquared (α : Type) [Arithmetic α] (observed : Histogram) (t : DistributionTable) : Fit α :=
  let shots := observed.total
  if shots = 0 then .statistic (Arithmetic.ofNat 0)
  else if observed.entries.any fun e => 0 < e.2 && t.count e.1 == 0 then .impossible
  else
    let recorded := t.entries.filter fun e => 0 < e.2
    .statistic (Arithmetic.sum (recorded.map fun e =>
      fitTerm α t shots e.2 (observed.getD e.1 0)))

end Readout
