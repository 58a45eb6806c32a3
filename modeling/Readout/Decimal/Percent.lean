import Readout.Arithmetic
import Readout.Decimal.Fixed

/-!
# Percentages

A share is shown in parts of a hundred with a fixed number of decimals and without the sign.
-/

namespace Readout.Decimal

/-- The decimals of a percentage where none are asked for. -/
def defaultPercentPlaces : Nat := 2

/-- A share in parts of a hundred. -/
def percent (places : Nat) (share : Float) : String := fixed places (Arithmetic.hundredfold share)

end Readout.Decimal
