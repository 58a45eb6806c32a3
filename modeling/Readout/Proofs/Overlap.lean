import Readout.Proofs.Tiling

/-!
# Ranges that overlap

Two ranges are said to overlap if each starts before the other one stops. That is not the same as to
hold a common position. A range without positions starts before the stop of every range that it
stands inside of (`starts_before_iff`); and nothing starts before a stop that is held at the largest
word if it starts there itself (`overlaps_eq_true_iff`). Between ranges that are not empty and start
below the largest word the two notions agree.

* `overlaps_iff_shares_or_lies_in`: what is said to overlap, and where that is to share a position.
-/

namespace Readout.BitRange

variable {r s : BitRange}

/-- Some position lies in both ranges; no end is held at the largest word. -/
def SharesPosition (r s : BitRange) : Prop := ∃ p, r.Holds p ∧ s.Holds p

/-- A range without positions that stands inside of another one, behind its first position. -/
def LiesEmptyIn (r s : BitRange) : Prop :=
  r.width = 0 ∧ s.start < r.start ∧ r.start < s.start + s.width

/-- If two ranges share a position, they share the higher one of their starts. -/
theorem sharesPosition_iff : r.SharesPosition s ↔
    (0 < r.width ∧ 0 < s.width) ∧ r.start < s.start + s.width ∧ s.start < r.start + r.width := by
  constructor
  · rintro ⟨p, hr, hs⟩
    rw [holds_iff] at hr hs
    omega
  · rintro ⟨⟨hr, hs⟩, hrs, hsr⟩
    refine ⟨max r.start s.start, holds_iff.mpr ⟨Nat.le_max_left _ _, ?_⟩,
      holds_iff.mpr ⟨Nat.le_max_right _ _, ?_⟩⟩
    · exact Nat.max_lt.mpr ⟨Nat.lt_add_of_pos_right hr, hsr⟩
    · exact Nat.max_lt.mpr ⟨hrs, Nat.lt_add_of_pos_right hs⟩

/-- Each of two ranges starts before the end of the other one in three cases. -/
theorem starts_before_iff :
    r.start < s.start + s.width ∧ s.start < r.start + r.width ↔
      r.SharesPosition s ∨ r.LiesEmptyIn s ∨ s.LiesEmptyIn r := by
  rw [sharesPosition_iff]
  unfold LiesEmptyIn
  omega

theorem overlaps_eq_true_iff : r.overlaps s = true ↔
    (r.start < maxWord ∧ s.start < maxWord) ∧
      r.start < s.start + s.width ∧ s.start < r.start + r.width := by
  rw [overlaps, Bool.and_eq_true, decide_eq_true_iff, decide_eq_true_iff, stop, stop, saturate,
    saturate, Nat.lt_min, Nat.lt_min, and_and_and_comm, and_comm]

theorem not_sharesPosition_of_liesEmptyIn (h : r.LiesEmptyIn s ∨ s.LiesEmptyIn r) :
    ¬ r.SharesPosition s := by
  rw [sharesPosition_iff]
  rintro ⟨⟨hr, hs⟩, -⟩
  rcases h with ⟨hzero, -⟩ | ⟨hzero, -⟩
  · exact Nat.ne_of_gt hr hzero
  · exact Nat.ne_of_gt hs hzero

/-- **What is said to overlap.** Both ranges start below the largest word, and they share a position
or one of them is empty and stands inside of the other. So the answer is not whether they share a
position in two cases: they share one, but not both of them start below the largest word; or both
do, and one stands empty in the other. -/
theorem overlaps_iff_shares_or_lies_in (r s : BitRange) :
    (r.overlaps s = true ↔ (r.start < maxWord ∧ s.start < maxWord) ∧
      (r.SharesPosition s ∨ r.LiesEmptyIn s ∨ s.LiesEmptyIn r)) ∧
    ((r.overlaps s = true ↔ r.SharesPosition s) ↔
      ¬ (r.SharesPosition s ∧ (maxWord ≤ r.start ∨ maxWord ≤ s.start)) ∧
      ¬ ((r.start < maxWord ∧ s.start < maxWord) ∧ (r.LiesEmptyIn s ∨ s.LiesEmptyIn r))) := by
  have hoverlaps : r.overlaps s = true ↔ (r.start < maxWord ∧ s.start < maxWord) ∧
      (r.SharesPosition s ∨ r.LiesEmptyIn s ∨ s.LiesEmptyIn r) := by
    rw [overlaps_eq_true_iff, starts_before_iff]
  refine ⟨hoverlaps, ?_⟩
  constructor
  · intro hagree
    constructor
    · rintro ⟨hshares, hbeyond⟩
      obtain ⟨hstarts, -⟩ := hoverlaps.mp (hagree.mpr hshares)
      omega
    · rintro ⟨hstarts, hempty⟩
      have hshares := hagree.mp (hoverlaps.mpr ⟨hstarts, .inr hempty⟩)
      exact not_sharesPosition_of_liesEmptyIn hempty hshares
  · rintro ⟨hmissed, hclaimed⟩
    rw [hoverlaps]
    constructor
    · rintro ⟨hstarts, hshares | hempty⟩
      · exact hshares
      · exact absurd ⟨hstarts, hempty⟩ hclaimed
    · intro hshares
      have hbelow : ¬ (maxWord ≤ r.start ∨ maxWord ≤ s.start) := fun h => hmissed ⟨hshares, h⟩
      exact ⟨by omega, .inl hshares⟩

/-- A range without positions overlaps the one that it stands inside of, and a range that holds just
the last position does not overlap itself. -/
theorem overlaps_without_shared_position :
    (overlaps ⟨2, 3⟩ ⟨3, 0⟩ = true ∧ ¬ SharesPosition ⟨2, 3⟩ ⟨3, 0⟩) ∧
      overlaps ⟨maxWord, 1⟩ ⟨maxWord, 1⟩ = false ∧
      SharesPosition ⟨maxWord, 1⟩ ⟨maxWord, 1⟩ := by
  refine ⟨⟨by decide, ?_⟩, by decide, maxWord, by decide, by decide⟩
  rw [sharesPosition_iff]
  decide

end Readout.BitRange
