import Readout.Word

/-!
# Ranges of bit positions

A range starts at a position and runs for a width; position 0 is the leftmost bit. The end of a
range is held at the largest word.
-/

namespace Readout

/-- A run of `width` positions from `start` on. -/
structure BitRange where
  start : Nat
  width : Nat
  deriving DecidableEq

namespace BitRange

/-- One past the last position, held at the largest word. -/
def stop (r : BitRange) : Nat := saturate (r.start + r.width)

/-- Whether each range starts before the other one stops. -/
def overlaps (r s : BitRange) : Bool := decide (r.start < s.stop) && decide (s.start < r.stop)

/-- Ranges are ordered by start, then by width. -/
instance : Ord BitRange := ⟨fun r s => (compare r.start s.start).then (compare r.width s.width)⟩

/-- The range as a half-open interval. -/
def text (r : BitRange) : String := s!"[{r.start}..{r.stop})"

theorem isLE_compare_iff {r s : BitRange} : (compare r s).isLE = true ↔
    r.start < s.start ∨ (r.start = s.start ∧ r.width ≤ s.width) := by
  have h : compare r s = (compare r.start s.start).then (compare r.width s.width) := rfl
  rw [h]
  rcases Nat.lt_trichotomy r.start s.start with hs | hs | hs
  · simp [Nat.compare_eq_lt.mpr hs, Ordering.then, hs]
  · simp [Ordering.then, hs, Nat.isLE_compare]
  · simp only [Nat.compare_eq_gt.mpr hs, Ordering.then, Ordering.isLE]
    constructor
    · intro h
      cases h
    · omega

end BitRange

end Readout
