import Readout.Bitstring.Basic
import Readout.Error
import Readout.Naturals

/-!
# Reading bitstrings

Texts and numbers are read as bitstrings, and runs of positions as numbers. A run that passes the
end is refused before one that is too wide for a word.
-/

namespace Readout.Bitstring

/-- Reads a non-empty text of zeros and ones. -/
def parse (input : String) : Except Error Bitstring :=
  match ofString? input with
  | some s => .ok s
  | none => .error (.invalidBitstring input)

/-- The bitstring of a width whose binary value is the given word. -/
def ofIndex (value width : Nat) : Except Error Bitstring :=
  match ofBits? (binaryDigits width value) with
  | none => .error (.invalidBitstring "")
  | some s =>
    if value < 2 ^ width then .ok s
    else .error (.indexOutOfRange value (2 ^ width) (.bitstringOfWidth width))

/-- The binary value of the bits in a range. -/
def slice (s : Bitstring) (r : BitRange) : Except Error Nat :=
  if s.width < r.stop then .error (.widthMismatch r.stop s.width)
  else if 64 ≤ r.width then .error (.invalidBinding (.rangeTooWide r))
  else .ok (binaryValue ((s.bits.drop r.start).take r.width))

/-- The binary value of all bits. -/
def toIndex (s : Bitstring) : Except Error Nat := s.slice ⟨0, s.width⟩

end Readout.Bitstring
