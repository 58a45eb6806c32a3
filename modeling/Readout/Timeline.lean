import Readout.Duration

/-!
# Timelines

A timeline lists tasks, each a sound at an offset from the start of playback. A task sounds from its
offset up to, and not including, its end. A question whose answer needs an end that is no duration
has no answer.
-/

namespace Readout

/-- A sound placed on a timeline. -/
structure Task (κ : Type) where
  offset : Duration
  duration : Duration
  sound : κ
  deriving DecidableEq

namespace Task

variable {κ : Type}

/-- The end of the task, counted from the start of playback. -/
def stop? (t : Task κ) : Option Duration := t.offset.add? t.duration

/-- Whether the task sounds at a time. The end is looked at only where the task has begun. -/
def isSounding? (t : Task κ) (elapsed : Duration) : Option Bool :=
  if t.offset ≤ elapsed then t.stop?.map fun stop => decide (elapsed < stop) else some false

end Task

/-- How long a sound lasts and how long the silence after it. -/
structure Timing where
  note : Duration
  gap : Duration
  deriving DecidableEq

/-- From the start of one sound to the start of the next. -/
def Timing.step? (t : Timing) : Option Duration := t.note.add? t.gap

namespace Timeline

variable {κ : Type}

/-- The latest end; zero where there are no tasks. -/
def total? : List (Task κ) → Option Duration
  | [] => some .zero
  | t :: rest => do
    let stop ← t.stop?
    let others ← total? rest
    some (stop.max others)

/-- Sounds one after the other from an offset on. The offset behind each sound has to be a duration,
also behind the last. -/
def layFrom? (note step offset : Duration) : List κ → Option (List (Task κ))
  | [] => some []
  | sound :: rest => do
    let next ← offset.add? step
    let tasks ← layFrom? note step next rest
    some (⟨offset, note, sound⟩ :: tasks)

/-- Sounds one after the other from the start. -/
def sequence? (timing : Timing) (sounds : List κ) : Option (List (Task κ)) := do
  let step ← timing.step?
  layFrom? timing.note step .zero sounds

end Timeline

end Readout
