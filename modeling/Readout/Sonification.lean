import Readout.Chord
import Readout.Naturals
import Readout.Sampling
import Readout.Timeline

/-!
# Outcomes as music

Drawn outcomes become chords that are laid one after the other. A chord is drawn right before it is
laid, so the words taken show how far the laying came.
-/

namespace Readout

/-- Pitch and timing. -/
structure SonificationSettings where
  /-- The frequency of the root in hertz. -/
  base : Float
  scale : Scale
  timing : Timing

namespace SonificationSettings

/-- Notes of 400 milliseconds with 100 milliseconds between them. -/
def standardTiming : Timing := ⟨⟨400 * 10 ^ 6, by decide⟩, ⟨100 * 10 ^ 6, by decide⟩⟩

/-- The root of chords where none is asked for, in hertz. -/
def standardBase : Float := 220.0

/-- Pentatonic chords above 220 hertz in the standard timing. -/
def standard : SonificationSettings := ⟨standardBase, .pentatonic, standardTiming⟩

/-- The frequencies of the settings. -/
def tuning (c : SonificationSettings) : Tuning Float := .equalTempered c.base

/-- The chord of an outcome. -/
def chord (c : SonificationSettings) (s : Bitstring) : Chord Float :=
  .ofBitstring c.tuning c.scale s

end SonificationSettings

namespace DistributionTable

/-- Draws and lays sounds from an offset on, until the offset behind one is no duration. -/
def soundsFrom? {κ : Type} (α : Type) [Arithmetic α] (t : DistributionTable)
    (sound : Bitstring → κ) (note step offset : Duration) (ticks : Nat) (s : WordStream) :
    Option (List (Task κ)) × WordStream :=
  match ticks with
  | 0 => (some [], s)
  | ticks + 1 =>
    let (drawn, rest) := t.sample α s
    match offset.add? step with
    | none => (none, rest)
    | some next =>
      let (tasks, rest) := t.soundsFrom? α sound note step next ticks rest
      (tasks.map (⟨offset, note, sound drawn.key⟩ :: ·), rest)

/-- Draws `ticks` outcomes and lays the sound of each after the one before it. -/
def sounds? {κ : Type} (α : Type) [Arithmetic α] (t : DistributionTable) (sound : Bitstring → κ)
    (timing : Timing) (ticks : Nat) (s : WordStream) : Option (List (Task κ)) × WordStream :=
  match timing.step? with
  | none => (none, s)
  | some step => t.soundsFrom? α sound timing.note step .zero ticks s

end DistributionTable

end Readout
