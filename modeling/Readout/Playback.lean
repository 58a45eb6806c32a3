import Readout.Timeline

/-!
# Playback and cancellation

Schedules and tokens are handles on shared stop flags. A copy of a schedule has tasks of its own but
stops together with it; a token stops whatever it was obtained from. `Playback` is the whole of it:
the flags, the schedules that are still there, and the tokens. Each task keeps the flag it was
scheduled under.
-/

namespace Readout

/-- A task with the flag that silences it. -/
structure ScheduledTask (κ : Type) where
  task : Task κ
  flag : Nat
  deriving DecidableEq

/-- Tasks and the flag that new tasks are put under. -/
structure Schedule (κ : Type) where
  tasks : List (ScheduledTask κ)
  flag : Nat
  deriving DecidableEq

/-- Adds a task, under the schedule's flag. -/
def Schedule.push {κ : Type} (s : Schedule κ) (t : Task κ) : Schedule κ :=
  { s with tasks := s.tasks ++ [⟨t, s.flag⟩] }

/-- A schedule of the given tasks under a flag. -/
def Schedule.ofTasks {κ : Type} (flag : Nat) (tasks : List (Task κ)) : Schedule κ :=
  ⟨tasks.map fun t => ⟨t, flag⟩, flag⟩

/-- Schedules and tokens with their flags. A schedule that was disposed of leaves an empty slot. -/
structure Playback (κ : Type) where
  flags : List Bool
  schedules : List (Option (Schedule κ))
  tokens : List Nat
  deriving DecidableEq

/-- What can be done with schedules and tokens. Schedules are named by their slot and tokens by
their number; a new schedule or token takes the next free one. -/
inductive Operation (κ : Type)
  /-- A new schedule of the given tasks. -/
  | schedule (tasks : List (Task κ))
  /-- A copy of a schedule. -/
  | copy (slot : Nat)
  /-- One more task for a schedule. -/
  | push (slot : Nat) (task : Task κ)
  /-- A token for a schedule. -/
  | handle (slot : Nat)
  /-- Cancels a schedule. -/
  | cancel (slot : Nat)
  /-- Cancels a schedule and gives it up. -/
  | dispose (slot : Nat)
  /-- A new token, related to nothing. -/
  | token
  /-- A copy of a token. -/
  | copyToken (token : Nat)
  /-- Cancels through a token. -/
  | cancelToken (token : Nat)
  deriving DecidableEq

namespace Playback

variable {κ : Type}

instance : EmptyCollection (Playback κ) := ⟨⟨[], [], []⟩⟩

instance : Inhabited (Playback κ) := ⟨∅⟩

/-- Whether a flag is set. -/
def isSet (p : Playback κ) (flag : Nat) : Bool := p.flags.getD flag false

/-- The schedule in a slot. -/
def schedule? (p : Playback κ) (slot : Nat) : Option (Schedule κ) := p.schedules[slot]?.join

/-- Sets a flag. -/
def setFlag (p : Playback κ) (flag : Nat) : Playback κ := { p with flags := p.flags.set flag true }

/-- Performs an operation; `none` if it names a schedule or a token that is not there. -/
def perform? (p : Playback κ) : Operation κ → Option (Playback κ)
  | .schedule tasks =>
    some { p with
      flags := p.flags ++ [false]
      schedules := p.schedules ++ [some (.ofTasks p.flags.length tasks)] }
  | .copy slot => do
    let s ← p.schedule? slot
    some { p with schedules := p.schedules ++ [some s] }
  | .push slot task => do
    let s ← p.schedule? slot
    some { p with schedules := p.schedules.set slot (some (s.push task)) }
  | .handle slot => do
    let s ← p.schedule? slot
    some { p with tokens := p.tokens ++ [s.flag] }
  | .cancel slot => do
    let s ← p.schedule? slot
    some (p.setFlag s.flag)
  | .dispose slot => do
    let s ← p.schedule? slot
    some { p.setFlag s.flag with schedules := p.schedules.set slot none }
  | .token => some { p with flags := p.flags ++ [false], tokens := p.tokens ++ [p.flags.length] }
  | .copyToken token => do
    let flag ← p.tokens[token]?
    some { p with tokens := p.tokens ++ [flag] }
  | .cancelToken token => do
    let flag ← p.tokens[token]?
    some (p.setFlag flag)

/-- Performs operations from the left, up to the first that names something that is not there. -/
def run? (p : Playback κ) (operations : List (Operation κ)) : Option (Playback κ) :=
  operations.foldlM perform? p

/-- Whether a task may still sound. -/
def isLive (p : Playback κ) (t : ScheduledTask κ) : Bool := !p.isSet t.flag

/-- Whether a schedule was cancelled. -/
def isCancelled (p : Playback κ) (s : Schedule κ) : Bool := p.isSet s.flag

/-- Whether a scheduled task sounds at a time; the time is looked at only for a live one. -/
def isSounding? (p : Playback κ) (elapsed : Duration) (t : ScheduledTask κ) : Option Bool :=
  if p.isLive t then t.task.isSounding? elapsed else some false

/-- The tasks that sound at a time, in the order they were scheduled. -/
def sounding? (p : Playback κ) (elapsed : Duration) :
    List (ScheduledTask κ) → Option (List (ScheduledTask κ))
  | [] => some []
  | t :: rest => do
    let sounds ← p.isSounding? elapsed t
    let others ← p.sounding? elapsed rest
    some (if sounds then t :: others else others)

end Playback

/-- The latest end of a schedule's tasks, cancelled or not. -/
def Schedule.total? {κ : Type} (s : Schedule κ) : Option Duration :=
  Timeline.total? (s.tasks.map (·.task))

end Readout
