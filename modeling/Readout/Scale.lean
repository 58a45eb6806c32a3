import Readout.Bitstring.Basic
import Readout.Naturals

/-!
# Scales

A scale counts semitones above its root. Its steps repeat every octave, twelve semitones higher each
time. Octaves and semitones are counted in 32 bits, so that beyond them the count starts anew.
-/

namespace Readout

/-- The notes that positions of a bitstring are mapped to. -/
inductive Scale
  | pentatonic
  | major
  | chromatic
  deriving DecidableEq

namespace Scale

/-- The semitones of the degrees within one octave. -/
def steps : Scale → List Nat
  | pentatonic => [0, 2, 4, 7, 9]
  | major => [0, 2, 4, 5, 7, 9, 11]
  | chromatic => [0, 1, 2, 3, 4, 5, 6, 7, 8, 9, 10, 11]

/-- The number of degrees in an octave. -/
def size (s : Scale) : Nat := s.steps.length

/-- The semitones of a degree above the root, counted in a 32-bit word from the number of octaves
on. -/
def semitones (s : Scale) (degree : Nat) : Nat :=
  (UInt32.ofNat (degree / s.size) * 12 + UInt32.ofNat (s.steps.getD (degree % s.size) 0)).toNat

theorem size_pos (s : Scale) : 0 < s.size := by cases s <;> decide

end Scale

/-- The positions of the set bits, from the left. -/
def Bitstring.setPositions (s : Bitstring) : List Nat :=
  (s.bits.zipIdx.filter (·.1)).map (·.2)

/-- The semitones of the set bits: a position is a degree of the scale. -/
def Bitstring.semitones (s : Bitstring) (scale : Scale) : List Nat :=
  s.setPositions.map scale.semitones

end Readout
