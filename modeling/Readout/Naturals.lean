/-!
# Powers and sums of natural numbers

The instances through which powers and sums of natural numbers are read, here and in the theory: a
statement about a definition then speaks of the very term that the definition unfolds to.
-/

namespace Readout

@[default_instance 20000]
scoped instance (priority := 2000) natPow : Pow Nat Nat := instPowNat

scoped instance (priority := 2000) natZero : Zero Nat := ⟨0⟩

end Readout
