import Readout.Naturals

/-!
# Durations

Times are exact numbers of nanoseconds, at most `2 ^ 64` seconds less one nanosecond. A sum beyond
that is no duration.
-/

namespace Readout

/-- A time in nanoseconds that fits 64 bits of seconds. -/
structure Duration where
  nanoseconds : Nat
  lt_limit : nanoseconds < 2 ^ 64 * 10 ^ 9
  deriving DecidableEq

namespace Duration

/-- The duration of a number of nanoseconds, if it is short enough. -/
def ofNanoseconds? (n : Nat) : Option Duration :=
  if h : n < 2 ^ 64 * 10 ^ 9 then some ⟨n, h⟩ else none

/-- The duration of zero. -/
def zero : Duration := ⟨0, by decide⟩

/-- The sum, if it is short enough. -/
def add? (a b : Duration) : Option Duration := ofNanoseconds? (a.nanoseconds + b.nanoseconds)

/-- The longer of two. -/
def max (a b : Duration) : Duration := if a.nanoseconds ≤ b.nanoseconds then b else a

instance : LE Duration := ⟨fun a b => a.nanoseconds ≤ b.nanoseconds⟩

instance : LT Duration := ⟨fun a b => a.nanoseconds < b.nanoseconds⟩

instance (a b : Duration) : Decidable (a ≤ b) :=
  inferInstanceAs (Decidable (a.nanoseconds ≤ b.nanoseconds))

instance (a b : Duration) : Decidable (a < b) :=
  inferInstanceAs (Decidable (a.nanoseconds < b.nanoseconds))

/-- The whole seconds. -/
def seconds (a : Duration) : Nat := a.nanoseconds / 10 ^ 9

/-- The nanoseconds beyond the whole seconds. -/
def subsecond (a : Duration) : Nat := a.nanoseconds % 10 ^ 9

@[ext] theorem ext {a b : Duration} (h : a.nanoseconds = b.nanoseconds) : a = b := by
  obtain ⟨n, _⟩ := a
  obtain ⟨m, _⟩ := b
  simp only at h
  subst h
  rfl

theorem add?_eq_some_iff {a b c : Duration} :
    a.add? b = some c ↔ c.nanoseconds = a.nanoseconds + b.nanoseconds := by
  unfold add? ofNanoseconds?
  constructor
  · intro h
    split at h
    · simp only [Option.some.injEq] at h
      rw [← h]
    · cases h
  · intro h
    have hlt := c.lt_limit
    rw [h] at hlt
    rw [dif_pos hlt, Option.some.injEq]
    exact ext h.symm

theorem add?_eq_none_iff {a b : Duration} :
    a.add? b = none ↔ 2 ^ 64 * 10 ^ 9 ≤ a.nanoseconds + b.nanoseconds := by
  unfold add? ofNanoseconds?
  split
  · simp only [reduceCtorEq, false_iff]
    omega
  · simp only [true_iff]
    omega

end Duration

end Readout
