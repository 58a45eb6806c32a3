import Mathlib.Tactic.ByContra
import Mathlib.Tactic.SplitIfs
import Readout.Coverage

/-!
# Ranges that tile a width

`checkCoverage` sorts the ranges and moves a cursor over them, with ends held at the largest word.
`Tiles` says, position by position and without a largest word, what it is meant to decide. The two
are joined by `coverCount`, the number of ranges that hold a position.

* `coverCount_of_sweep`: a cursor that went from `cursor` to `covered` passed, below the largest
  word, exactly the positions between the two, each once.
* `sweep_of_coverCount`: over sorted ranges the cursor gets through wherever the counts allow it.
* `checkCoverage_eq_ok_iff`: below the largest word the check accepts exactly the tilings by ranges
  that are not empty. A width of the largest word lets ranges through that reach beyond it
  (`checkCoverage_ok_iff_covers_once`), even such as overlap there
  (`checkCoverage_accepts_overlap_beyond`).
* `Tiles.pairwise_disjoint`: no two ranges of a tiling share a position.
-/

namespace Readout

namespace BitRange

/-- The position lies in the range; the end is not held at the largest word. -/
def Holds (r : BitRange) (p : Nat) : Prop := r.start ≤ p ∧ p < r.start + r.width

instance (r : BitRange) (p : Nat) : Decidable (r.Holds p) := inferInstanceAs (Decidable (_ ∧ _))

theorem holds_iff {r : BitRange} {p : Nat} :
    r.Holds p ↔ r.start ≤ p ∧ p < r.start + r.width := Iff.rfl

theorem stop_le (r : BitRange) : r.stop ≤ r.start + r.width := Nat.min_le_left _ _

theorem stop_le_maxWord (r : BitRange) : r.stop ≤ maxWord := saturate_le _

/-- An end below the largest word is exact. -/
theorem stop_eq_of_lt {r : BitRange} (h : r.stop < maxWord) : r.stop = r.start + r.width := by
  unfold stop saturate at *
  omega

theorem start_le_stop {r : BitRange} (h : r.start ≤ maxWord) : r.start ≤ r.stop :=
  Nat.le_min.mpr ⟨Nat.le_add_right _ _, h⟩

/-- Below the largest word the end that is held there bounds the same positions. -/
theorem holds_iff_lt_stop {r : BitRange} {p : Nat} (h : p < maxWord) :
    r.Holds p ↔ r.start ≤ p ∧ p < r.stop := by
  rw [holds_iff, stop, saturate, Nat.lt_min]
  exact and_congr_right fun _ => ⟨fun hp => ⟨hp, h⟩, fun hp => hp.1⟩

theorem isLE_compare_trans (r s t : BitRange) (h : (compare r s).isLE = true)
    (h' : (compare s t).isLE = true) : (compare r t).isLE = true := by
  rw [isLE_compare_iff] at *
  omega

theorem isLE_compare_total (r s : BitRange) :
    ((compare r s).isLE || (compare s r).isLE) = true := by
  rw [Bool.or_eq_true, isLE_compare_iff, isLE_compare_iff]
  omega

end BitRange

/-! ## How many ranges hold a position -/

/-- The number of ranges that hold a position. -/
def coverCount (ranges : List BitRange) (p : Nat) : Nat := ranges.countP fun r => r.Holds p

@[simp] theorem coverCount_nil (p : Nat) : coverCount [] p = 0 := rfl

theorem coverCount_cons (r : BitRange) (rest : List BitRange) (p : Nat) :
    coverCount (r :: rest) p = coverCount rest p + if r.Holds p then 1 else 0 := by
  simp [coverCount, List.countP_cons]

theorem coverCount_perm {ranges ranges' : List BitRange} (h : ranges.Perm ranges') (p : Nat) :
    coverCount ranges p = coverCount ranges' p := h.countP_eq _

theorem coverCount_pos_iff {ranges : List BitRange} {p : Nat} :
    0 < coverCount ranges p ↔ ∃ r ∈ ranges, r.Holds p := by
  simp [coverCount, List.countP_pos_iff]

theorem coverCount_eq_zero_iff {ranges : List BitRange} {p : Nat} :
    coverCount ranges p = 0 ↔ ∀ r ∈ ranges, ¬ r.Holds p := by
  simp [coverCount, List.countP_eq_zero]

theorem tiles_iff_holds {width : Nat} {ranges : List BitRange} :
    Tiles width ranges ↔ (∀ p < width, coverCount ranges p = 1) ∧
      ∀ r ∈ ranges, ∀ p, r.Holds p → p < width := by
  have hcount : ∀ p, (ranges.filter fun r => r.start ≤ p ∧ p < r.start + r.width).length =
      coverCount ranges p := fun p => List.countP_eq_length_filter.symm
  unfold Tiles
  simp only [hcount, BitRange.holds_iff, and_imp]

theorem tiles_iff_coverCount {width : Nat} {ranges : List BitRange} :
    Tiles width ranges ↔ ∀ p, coverCount ranges p = if p < width then 1 else 0 := by
  rw [tiles_iff_holds]
  constructor
  · rintro ⟨hinside, hbeyond⟩ p
    split
    · rename_i hp
      exact hinside p hp
    · rename_i hp
      rw [coverCount_eq_zero_iff]
      intro r hr hold
      exact hp (hbeyond r hr p hold)
  · intro h
    refine ⟨fun p hp => by rw [h p, if_pos hp], fun r hr p hold => ?_⟩
    have hpos : 0 < coverCount ranges p := coverCount_pos_iff.mpr ⟨r, hr, hold⟩
    rw [h p] at hpos
    by_contra hp
    rw [if_neg hp] at hpos
    exact Nat.lt_irrefl 0 hpos

theorem pairwise_disjoint_of_coverCount_le_one {ranges : List BitRange}
    (h : ∀ p, coverCount ranges p ≤ 1) :
    ranges.Pairwise fun r s => ∀ p, r.Holds p → ¬ s.Holds p := by
  induction ranges with
  | nil => exact .nil
  | cons r rest ih =>
    refine List.pairwise_cons.mpr ⟨fun s hs p hr hold => ?_, ih fun p => ?_⟩
    · have hpos : 0 < coverCount rest p := coverCount_pos_iff.mpr ⟨s, hs, hold⟩
      have hle := h p
      rw [coverCount_cons, if_pos hr] at hle
      omega
    · have hle := h p
      rw [coverCount_cons] at hle
      omega

theorem Tiles.pairwise_disjoint {width : Nat} {ranges : List BitRange} (h : Tiles width ranges) :
    ranges.Pairwise fun r s => ∀ p, r.Holds p → ¬ s.Holds p := by
  apply pairwise_disjoint_of_coverCount_le_one
  intro p
  rw [tiles_iff_coverCount.mp h p]
  split <;> omega

theorem Tiles.exists_holds {width : Nat} {ranges : List BitRange} (h : Tiles width ranges)
    {p : Nat} (hp : p < width) : ∃ r ∈ ranges, r.Holds p := by
  rw [← coverCount_pos_iff, tiles_iff_coverCount.mp h p, if_pos hp]
  exact Nat.one_pos

theorem Tiles.stop_le {width : Nat} {ranges : List BitRange} (h : Tiles width ranges)
    {r : BitRange} (hr : r ∈ ranges) (hpos : 0 < r.width) : r.start + r.width ≤ width := by
  have hlast := h.2 r hr (r.start + r.width - 1) (by omega) (by omega)
  omega

/-! ## The cursor -/

/-- The step that the cursor takes: a range that starts at the cursor is passed, any other is
refused. -/
theorem sweep_cons_eq_ok_iff {cursor covered : Nat} {r : BitRange} {rest : List BitRange} :
    sweep cursor (r :: rest) = .ok covered ↔
      r.start = cursor ∧ sweep r.stop rest = .ok covered := by
  rw [sweep]
  rcases Nat.lt_trichotomy r.start cursor with h | h | h
  · simp [h, Nat.ne_of_lt h]
  · simp [h]
  · simp [Nat.lt_asymm h, h, Nat.ne_of_gt h]

/-- A cursor that went from `cursor` to `covered` passed no end beyond `covered` and, below the
largest word, exactly the positions between the two, each once. -/
theorem coverCount_of_sweep {ranges : List BitRange} {cursor covered : Nat}
    (hcursor : cursor ≤ maxWord) (h : sweep cursor ranges = .ok covered) :
    cursor ≤ covered ∧ (∀ r ∈ ranges, r.stop ≤ covered) ∧
      ∀ p < maxWord, coverCount ranges p = if cursor ≤ p ∧ p < covered then 1 else 0 := by
  induction ranges generalizing cursor with
  | nil =>
    obtain rfl : cursor = covered := Except.ok.inj h
    refine ⟨Nat.le_refl _, fun r hr => absurd hr List.not_mem_nil, fun p _ => ?_⟩
    rw [coverCount_nil, if_neg (by omega)]
  | cons r rest ih =>
    obtain ⟨hstart, hrest⟩ := sweep_cons_eq_ok_iff.mp h
    obtain ⟨hle, hstops, hcount⟩ := ih r.stop_le_maxWord hrest
    have hforward : cursor ≤ r.stop := hstart ▸ BitRange.start_le_stop (hstart ▸ hcursor)
    refine ⟨Nat.le_trans hforward hle, fun s hs => ?_, fun p hp => ?_⟩
    · rcases List.mem_cons.mp hs with rfl | hs
      · exact hle
      · exact hstops s hs
    · rw [coverCount_cons, hcount p hp]
      by_cases hold : r.Holds p
      · rw [if_pos hold]
        rw [BitRange.holds_iff_lt_stop hp] at hold
        rw [if_neg (by omega), if_pos (by omega)]
      · rw [if_neg hold]
        rw [BitRange.holds_iff_lt_stop hp] at hold
        split_ifs <;> omega

theorem sweep_of_coverCount {ranges : List BitRange} {cursor width : Nat}
    (hsorted : ranges.Pairwise fun r s => (compare r s).isLE = true)
    (hpos : ∀ r ∈ ranges, 0 < r.width) (hstarts : ∀ r ∈ ranges, r.start ≤ maxWord)
    (hstops : ∀ r ∈ ranges, r.stop ≤ width) (hwidth : width ≤ maxWord) (hcursor : cursor ≤ width)
    (h : ∀ p < maxWord, coverCount ranges p = if cursor ≤ p ∧ p < width then 1 else 0) :
    sweep cursor ranges = .ok width := by
  induction ranges generalizing cursor with
  | nil =>
    by_cases hend : cursor < width
    · have hcount := h cursor (by omega)
      rw [coverCount_nil, if_pos (by omega)] at hcount
      cases hcount
    · obtain rfl : cursor = width := by omega
      rfl
  | cons r rest ih =>
    obtain ⟨hfirst, hsorted⟩ := List.pairwise_cons.mp hsorted
    have hr : 0 < r.width := hpos r List.mem_cons_self
    have hword : r.start ≤ maxWord := hstarts r List.mem_cons_self
    have hstop : r.stop ≤ width := hstops r List.mem_cons_self
    have hinside : ∀ p < maxWord, r.Holds p → cursor ≤ p ∧ p < width := by
      intro p hp hold
      by_contra hn
      have hcount : 0 < coverCount (r :: rest) p :=
        coverCount_pos_iff.mpr ⟨r, List.mem_cons_self, hold⟩
      rw [h p hp, if_neg hn] at hcount
      exact Nat.lt_irrefl 0 hcount
    have hlow : cursor ≤ r.start := by
      by_cases hlast : r.start < maxWord
      · exact (hinside r.start hlast ⟨Nat.le_refl _, by omega⟩).1
      · omega
    -- the position under the cursor is held by some range, and none starts before the first
    have hstart : r.start = cursor := by
      by_cases hend : cursor < width
      · have hcount : 0 < coverCount (r :: rest) cursor := by
          rw [h cursor (by omega), if_pos (by omega)]
          exact Nat.one_pos
        obtain ⟨s, hs, hold⟩ := coverCount_pos_iff.mp hcount
        rcases List.mem_cons.mp hs with rfl | hs
        · exact Nat.le_antisymm hold.1 hlow
        · have hle := BitRange.isLE_compare_iff.mp (hfirst s hs)
          have hs := hold.1
          omega
      · have hforward := BitRange.start_le_stop hword
        omega
    have hforward := BitRange.start_le_stop hword
    refine sweep_cons_eq_ok_iff.mpr ⟨hstart, ih hsorted (fun s hs => hpos s (.tail r hs))
      (fun s hs => hstarts s (.tail r hs)) (fun s hs => hstops s (.tail r hs)) hstop
      fun p hp => ?_⟩
    have hcount := h p hp
    rw [coverCount_cons] at hcount
    by_cases hold : r.Holds p
    · rw [if_pos hold, if_pos (hinside p hp hold)] at hcount
      rw [BitRange.holds_iff_lt_stop hp] at hold
      rw [if_neg (by omega)]
      omega
    · rw [if_neg hold, Nat.add_zero] at hcount
      rw [hcount]
      rw [BitRange.holds_iff_lt_stop hp] at hold
      split_ifs <;> omega

/-! ## The check -/

theorem covered_of_checkCoverage {width : Nat} (hwidth : width ≤ maxWord)
    {ranges : List BitRange} (h : checkCoverage width ranges = .ok ()) :
    0 < width ∧ (∀ r ∈ ranges, 0 < r.width) ∧ (∀ r ∈ ranges, r.stop ≤ width) ∧
      ∀ p < width, coverCount ranges p = 1 := by
  have hperm := List.mergeSort_perm ranges fun r s => (compare r s).isLE
  unfold checkCoverage at h
  split at h
  · cases h
  rename_i hzero
  split at h
  · cases h
  rename_i hempty
  split at h
  · cases h
  rename_i covered hsweep
  split at h
  · cases h
  split at h
  · cases h
  obtain rfl : covered = width := by omega
  obtain ⟨-, hstops, hcovered⟩ := coverCount_of_sweep (Nat.zero_le _) hsweep
  refine ⟨by omega, fun r hr => ?_, fun r hr => hstops r (hperm.mem_iff.mpr hr), fun p hp => ?_⟩
  · have hne := List.find?_eq_none.mp hempty r hr
    simp only [decide_eq_true_eq] at hne
    omega
  · rw [← coverCount_perm hperm p, hcovered p (by omega), if_pos ⟨Nat.zero_le p, hp⟩]

theorem checkCoverage_eq_ok {width : Nat} (hwidth : width ≤ maxWord) {ranges : List BitRange}
    (hzero : 0 < width) (hpos : ∀ r ∈ ranges, 0 < r.width)
    (hstarts : ∀ r ∈ ranges, r.start ≤ maxWord) (hstops : ∀ r ∈ ranges, r.stop ≤ width)
    (hcount : ∀ p < width, coverCount ranges p = 1) : checkCoverage width ranges = .ok () := by
  have hperm := List.mergeSort_perm ranges fun r s => (compare r s).isLE
  have hsorted := List.pairwise_mergeSort BitRange.isLE_compare_trans
    BitRange.isLE_compare_total ranges
  have hempty : ranges.find? (fun r => r.width = 0) = none := by
    rw [List.find?_eq_none]
    intro r hr
    have hne := hpos r hr
    simp only [decide_eq_true_eq]
    omega
  have hsweep : sweep 0 (ranges.mergeSort fun r s => (compare r s).isLE) = .ok width := by
    refine sweep_of_coverCount hsorted (fun r hr => hpos r (hperm.mem_iff.mp hr))
      (fun r hr => hstarts r (hperm.mem_iff.mp hr)) (fun r hr => hstops r (hperm.mem_iff.mp hr))
      hwidth (Nat.zero_le width) fun p hp => ?_
    rw [coverCount_perm hperm p]
    by_cases hinside : p < width
    · rw [hcount p hinside, if_pos ⟨Nat.zero_le p, hinside⟩]
    · rw [if_neg (fun h => hinside h.2), coverCount_eq_zero_iff]
      intro r hr hold
      rw [BitRange.holds_iff_lt_stop hp] at hold
      have hstop := hstops r hr
      omega
  unfold checkCoverage
  rw [if_neg (by omega), hempty, hsweep]
  simp

theorem checkCoverage_eq_ok_iff {width : Nat} (hwidth : width < maxWord)
    {ranges : List BitRange} :
    checkCoverage width ranges = .ok () ↔
      0 < width ∧ (∀ r ∈ ranges, 0 < r.width) ∧ Tiles width ranges := by
  constructor
  · intro h
    obtain ⟨hzero, hpos, hstops, hcount⟩ := covered_of_checkCoverage (Nat.le_of_lt hwidth) h
    refine ⟨hzero, hpos, tiles_iff_holds.mpr ⟨hcount, fun r hr p hold => ?_⟩⟩
    -- an end held at the largest word would be beyond the width
    have hstop := hstops r hr
    rw [BitRange.stop_eq_of_lt (by omega)] at hstop
    rw [BitRange.holds_iff] at hold
    omega
  · rintro ⟨hzero, hpos, htiles⟩
    have hfits : ∀ r ∈ ranges, r.start + r.width ≤ width := fun r hr =>
      htiles.stop_le hr (hpos r hr)
    refine checkCoverage_eq_ok (Nat.le_of_lt hwidth) hzero hpos (fun r hr => ?_)
      (fun r hr => Nat.le_trans r.stop_le (hfits r hr)) (tiles_iff_holds.mp htiles).1
    have hr' := hfits r hr
    omega

/-- **What is accepted at every width.** Each range holds some position and each position below the
width is held by exactly one range. Below the largest word no range reaches beyond the width either;
at the largest word it may, since an end beyond is held there. -/
theorem checkCoverage_ok_iff_covers_once {width : Nat} (hwidth : width ≤ maxWord)
    {ranges : List BitRange} (hstarts : ∀ r ∈ ranges, r.start ≤ maxWord) :
    checkCoverage width ranges = .ok () ↔
      0 < width ∧ (∀ r ∈ ranges, 0 < r.width) ∧ (∀ p < width, coverCount ranges p = 1) ∧
        (width < maxWord → ∀ r ∈ ranges, ∀ p, r.Holds p → p < width) := by
  rcases Nat.lt_or_eq_of_le hwidth with hlt | rfl
  · rw [checkCoverage_eq_ok_iff hlt, tiles_iff_holds]
    simp only [hlt, forall_const]
  · constructor
    · intro h
      obtain ⟨hzero, hpos, -, hcount⟩ := covered_of_checkCoverage hwidth h
      exact ⟨hzero, hpos, hcount, fun hlt => absurd hlt (Nat.lt_irrefl _)⟩
    · rintro ⟨hzero, hpos, hcount, -⟩
      exact checkCoverage_eq_ok hwidth hzero hpos hstarts (fun r _ => r.stop_le_maxWord) hcount

/-- Two halves of `2 ^ 63` positions are accepted at the largest word, where the second holds one
position more than there are. -/
theorem checkCoverage_halves :
    maxWord ≤ maxWord ∧ (∀ r ∈ [(⟨0, 2 ^ 63⟩ : BitRange), ⟨2 ^ 63, 2 ^ 63⟩], r.start ≤ maxWord) ∧
      checkCoverage maxWord [⟨0, 2 ^ 63⟩, ⟨2 ^ 63, 2 ^ 63⟩] = .ok () := by
  have hstarts : ∀ r ∈ [(⟨0, 2 ^ 63⟩ : BitRange), ⟨2 ^ 63, 2 ^ 63⟩], r.start ≤ maxWord := by
    decide
  refine ⟨Nat.le_refl _, hstarts, (checkCoverage_ok_iff_covers_once (Nat.le_refl _) hstarts).mpr
    ⟨by decide, by decide, fun p hp => ?_, fun h => absurd h (Nat.lt_irrefl _)⟩⟩
  unfold maxWord at hp
  simp only [coverCount_cons, coverCount_nil, BitRange.holds_iff]
  split_ifs <;> omega

/-- At the largest word the check accepts two ranges that both hold the position one beyond all. -/
theorem checkCoverage_accepts_overlap_beyond :
    checkCoverage maxWord [⟨0, maxWord⟩, ⟨maxWord, 1⟩, ⟨maxWord, 1⟩] = .ok () ∧
      ¬ (0 < maxWord ∧
        (∀ r ∈ [(⟨0, maxWord⟩ : BitRange), ⟨maxWord, 1⟩, ⟨maxWord, 1⟩], 0 < r.width) ∧
        Tiles maxWord [⟨0, maxWord⟩, ⟨maxWord, 1⟩, ⟨maxWord, 1⟩]) ∧
      coverCount [⟨0, maxWord⟩, ⟨maxWord, 1⟩, ⟨maxWord, 1⟩] maxWord = 2 := by
  refine ⟨checkCoverage_eq_ok (Nat.le_refl _) (by decide) (by decide) (by decide)
    (fun r _ => r.stop_le_maxWord) fun p hp => ?_, ?_, by decide⟩
  · unfold maxWord at hp ⊢
    simp only [coverCount_cons, coverCount_nil, BitRange.holds_iff]
    split_ifs <;> omega
  · rintro ⟨-, -, htiles⟩
    exact absurd (htiles.2 ⟨maxWord, 1⟩ (by simp) maxWord (by decide) (by decide)) (by decide)

end Readout
