import Readout.DistributionTable
import Readout.Decimal.Fixed
import Readout.Scale

/-!
# Chords

An outcome sounds as a chord with one tone for each set bit, all tones equally loud and together of
loudness one; the outcome without set bits is a rest. The chords of a table are scaled by their
recorded counts against the largest count.
-/

namespace Readout

/-- A pitch with a linear gain. -/
structure Tone (α : Type) where
  frequency : α
  amplitude : α
  deriving DecidableEq

/-- Tones that sound together. -/
structure Chord (α : Type) where
  tones : List (Tone α)
  deriving DecidableEq

/-- The frequency of a number of semitones above a root. -/
abbrev Tuning (α : Type) := Nat → α

/-- Twelve equal semitones to the octave above a root given in hertz. -/
def Tuning.equalTempered (base : Float) : Tuning Float := fun semitone =>
  base * Float.pow 2.0 (Float.ofNat semitone / 12.0)

namespace Chord

variable {α : Type} [Arithmetic α]

/-- Whether nothing sounds. -/
def isSilent (c : Chord α) : Bool := c.tones.isEmpty

/-- The sum of the gains. -/
def loudness (c : Chord α) : α := Arithmetic.sum (c.tones.map (·.amplitude))

/-- Every gain multiplied by a factor. -/
def scaled (c : Chord α) (factor : α) : Chord α :=
  ⟨c.tones.map fun t => { t with amplitude := t.amplitude * factor }⟩

/-- The chord of an outcome. -/
def ofBitstring (tuning : Tuning α) (scale : Scale) (s : Bitstring) : Chord α :=
  let amplitude : α := Arithmetic.ofNat 1 / Arithmetic.ofNat s.countOnes
  ⟨(s.semitones scale).map fun n => ⟨tuning n, amplitude⟩⟩

/-- One tone as text. -/
def toneText (t : Tone Float) : String :=
  Decimal.fixed 1 t.frequency ++ "Hz@" ++ Decimal.fixed 2 t.amplitude

/-- The chord as text. -/
def text (c : Chord Float) : String :=
  if c.tones.isEmpty then "(rest)" else String.intercalate " + " (c.tones.map toneText)

end Chord

/-- The largest count of a table, and one if all were zero. -/
def DistributionTable.maxCount (t : DistributionTable) : Nat := t.weights.foldl max 1

/-- A chord for each entry, scaled by the share that its count is of the largest one. -/
def DistributionTable.chords {α : Type} [Arithmetic α] (t : DistributionTable)
    (tuning : Tuning α) (scale : Scale) : List (Bitstring × Chord α) :=
  t.entries.map fun e =>
    (e.1, (Chord.ofBitstring tuning scale e.1).scaled
      (Arithmetic.ofNat e.2 / Arithmetic.ofNat t.maxCount))

end Readout
