import Mathlib.Algebra.BigOperators.Group.List.Lemmas
import Mathlib.Data.Rat.Cast.Order
import Readout.Arithmetic

/-!
# Arithmetic without rounding

Over the rationals the sums and shares of an arithmetic are the usual ones.
-/

namespace Readout.Arithmetic

theorem sum_rat (xs : List ℚ) : Arithmetic.sum xs = xs.sum := List.sum_eq_foldl.symm

theorem share_rat (count total : Nat) : share ℚ count total = count / total := by
  unfold share
  split
  · rename_i hzero
    rw [hzero, Nat.cast_zero, div_zero]
    rfl
  · rfl

end Readout.Arithmetic
