import Mathlib
import Readout.Sampling

/-!
# Draws in proportion to the weights

Any walk ends where it stops, or runs off the end and falls back (`walk_eq_stop?_or`). Over the
rationals nothing is rounded, so a walk that starts at `r` stops at the weight whose stretch of the
running sum holds `r` (`stop?_rat_eq_some_iff`). The numbers that a draw can start from are the
fractions `k / 2 ^ 53`; how many of them fall into a stretch is its length, up to one fraction at
each end (`card_pickIndex_near_share`). The fraction zero goes to the first stretch that is not
empty; what it adds there the last one lacks, since one is no such fraction.
-/

namespace Readout

/-! ## Where a walk stops -/

section Walk

variable {α : Type} [Arithmetic α]

/-- The index of the weight that uses up what remains; none where a walk runs off the end. -/
def stop? (remaining : α) (index : Nat) : List Nat → Option Nat
  | [] => none
  | weight :: rest =>
    if weight = 0 then stop? remaining (index + 1) rest
    else
      let left := remaining - Arithmetic.ofNat weight
      if Arithmetic.isNonpos left then some index else stop? left (index + 1) rest

/-- The last index of a weight other than zero, the first weight having the given index. -/
def lastPositive? (index : Nat) (fallback : Option Nat) : List Nat → Option Nat
  | [] => fallback
  | weight :: rest => lastPositive? (index + 1) (if weight = 0 then fallback else some index) rest

/-- A walk ends where it stops, or else at the last weight other than zero. -/
theorem walk_eq_stop?_or (remaining : α) (index : Nat) (fallback : Option Nat)
    (weights : List Nat) :
    walk remaining index fallback weights =
      (stop? remaining index weights).or (lastPositive? index fallback weights) := by
  induction weights generalizing remaining index fallback with
  | nil => rfl
  | cons weight rest ih =>
    rw [walk, stop?, lastPositive?]
    by_cases hzero : weight = 0
    · rw [if_pos hzero, if_pos hzero, if_pos hzero]
      exact ih remaining (index + 1) fallback
    · rw [if_neg hzero, if_neg hzero, if_neg hzero]
      by_cases hleft : Arithmetic.isNonpos (remaining - Arithmetic.ofNat weight) = true
      · simp only [hleft, if_true, Option.some_or]
      · simp only [hleft, ih]
        rfl

end Walk

/-! ## The exact walk -/

/-- One step of a walk without rounding. -/
theorem stop?_rat_cons (r : ℚ) (index : Nat) (weight : Nat) (rest : List Nat) :
    stop? r index (weight :: rest) =
      if weight = 0 then stop? r (index + 1) rest
      else if r ≤ weight then some index
      else stop? (r - weight) (index + 1) rest := by
  have hnonpos : Arithmetic.isNonpos (r - (Arithmetic.ofNat weight : ℚ)) =
      decide (r - (weight : ℚ) ≤ 0) := rfl
  rw [stop?]
  simp only [hnonpos, decide_eq_true_eq, sub_nonpos]
  rfl

/-- The sum of the weights in front of an index. -/
def sumBefore (weights : List Nat) (k : Nat) : Nat := (weights.take k).sum

@[simp] theorem sumBefore_zero (weights : List Nat) : sumBefore weights 0 = 0 := rfl

@[simp] theorem sumBefore_cons_succ (weight : Nat) (rest : List Nat) (k : Nat) :
    sumBefore (weight :: rest) (k + 1) = weight + sumBefore rest k := rfl

theorem sumBefore_succ (weights : List Nat) (k : Nat) :
    sumBefore weights (k + 1) = sumBefore weights k + weights.getD k 0 := by
  induction weights generalizing k with
  | nil => simp [sumBefore]
  | cons weight rest ih =>
    cases k with
    | zero => simp
    | succ k => rw [sumBefore_cons_succ, sumBefore_cons_succ, ih, List.getD_cons_succ, Nat.add_assoc]

theorem sumBefore_le_sum (weights : List Nat) (k : Nat) : sumBefore weights k ≤ weights.sum := by
  induction weights generalizing k with
  | nil => simp [sumBefore]
  | cons weight rest ih =>
    cases k with
    | zero => exact Nat.zero_le _
    | succ k =>
      rw [sumBefore_cons_succ, List.sum_cons]
      exact Nat.add_le_add_left (ih k) weight

/-- The running sum passes `r` at an index: the stretch that the index adds holds `r`. A stretch is
open below, save that the first one that is not empty goes down without end. -/
def StretchHolds (weights : List Nat) (r : ℚ) (k : Nat) : Prop :=
  sumBefore weights k < sumBefore weights (k + 1) ∧ r ≤ sumBefore weights (k + 1) ∧
    (sumBefore weights k = 0 ∨ sumBefore weights k < r)

theorem stretchHolds_zero_cons_succ {rest : List Nat} {r : ℚ} {k : Nat} :
    StretchHolds (0 :: rest) r (k + 1) ↔ StretchHolds rest r k := by
  simp [StretchHolds]

theorem not_stretchHolds_zero_cons_zero {rest : List Nat} {r : ℚ} :
    ¬ StretchHolds (0 :: rest) r 0 := by
  rintro ⟨hlt, -⟩
  exact Nat.lt_irrefl 0 hlt

theorem stretchHolds_cons_zero {weight : Nat} {rest : List Nat} {r : ℚ} (h : 0 < weight) :
    StretchHolds (weight :: rest) r 0 ↔ r ≤ weight := by
  simp [StretchHolds, h]

theorem stretchHolds_cons_succ {weight : Nat} {rest : List Nat} {r : ℚ} {k : Nat}
    (h : 0 < weight) :
    StretchHolds (weight :: rest) r (k + 1) ↔
      weight < r ∧ StretchHolds rest (r - weight) k := by
  unfold StretchHolds
  simp only [sumBefore_cons_succ, Nat.cast_add, Nat.add_lt_add_iff_left]
  refine ⟨?_, ?_⟩
  · rintro ⟨hpos, hle, hzero | hlt⟩
    · omega
    · have hsum : (0 : ℚ) ≤ sumBefore rest k := Nat.cast_nonneg _
      exact ⟨by linarith, hpos, by linarith, .inr (by linarith)⟩
  · rintro ⟨hr, hpos, hle, hbelow⟩
    refine ⟨hpos, by linarith, .inr ?_⟩
    rcases hbelow with hzero | hlt
    · rw [hzero, Nat.cast_zero]
      linarith
    · linarith

/-- An exact walk stops at the index whose stretch holds its start, and at no other. -/
theorem stop?_rat_eq_some_iff {weights : List Nat} {r : ℚ} {index i : Nat} :
    stop? r index weights = some i ↔ ∃ k, i = index + k ∧ StretchHolds weights r k := by
  induction weights generalizing r index with
  | nil =>
    refine ⟨nofun, ?_⟩
    rintro ⟨k, -, hlt, -⟩
    simp [sumBefore] at hlt
  | cons weight rest ih =>
    rw [stop?_rat_cons]
    by_cases hzero : weight = 0
    · subst hzero
      rw [if_pos rfl, ih]
      refine ⟨?_, ?_⟩
      · rintro ⟨k, rfl, hold⟩
        exact ⟨k + 1, by omega, stretchHolds_zero_cons_succ.mpr hold⟩
      · rintro ⟨k, rfl, hold⟩
        cases k with
        | zero => exact absurd hold not_stretchHolds_zero_cons_zero
        | succ k => exact ⟨k, by omega, stretchHolds_zero_cons_succ.mp hold⟩
    · have hpos : 0 < weight := Nat.pos_of_ne_zero hzero
      rw [if_neg hzero]
      by_cases hle : r ≤ weight
      · rw [if_pos hle]
        refine ⟨?_, ?_⟩
        · intro h
          exact ⟨0, (Option.some.inj h).symm, (stretchHolds_cons_zero hpos).mpr hle⟩
        · rintro ⟨k, rfl, hold⟩
          cases k with
          | zero => rfl
          | succ k =>
            have hlt := ((stretchHolds_cons_succ hpos).mp hold).1
            exact absurd hle (not_le_of_gt hlt)
      · have hlt : (weight : ℚ) < r := not_le.mp hle
        rw [if_neg hle, ih]
        refine ⟨?_, ?_⟩
        · rintro ⟨k, rfl, hold⟩
          exact ⟨k + 1, by omega, (stretchHolds_cons_succ hpos).mpr ⟨hlt, hold⟩⟩
        · rintro ⟨k, rfl, hold⟩
          cases k with
          | zero => exact absurd ((stretchHolds_cons_zero hpos).mp hold) hle
          | succ k => exact ⟨k, by omega, ((stretchHolds_cons_succ hpos).mp hold).2⟩

theorem exists_stretchHolds {weights : List Nat} {r : ℚ} (hsum : 0 < weights.sum)
    (hr : r ≤ weights.sum) : ∃ k, StretchHolds weights r k := by
  induction weights generalizing r with
  | nil => cases hsum
  | cons weight rest ih =>
    rw [List.sum_cons] at hsum hr
    by_cases hzero : weight = 0
    · subst hzero
      rw [Nat.zero_add] at hsum hr
      obtain ⟨k, hold⟩ := ih hsum hr
      exact ⟨k + 1, stretchHolds_zero_cons_succ.mpr hold⟩
    · have hpos : 0 < weight := Nat.pos_of_ne_zero hzero
      by_cases hle : r ≤ weight
      · exact ⟨0, (stretchHolds_cons_zero hpos).mpr hle⟩
      · have hlt : (weight : ℚ) < r := not_le.mp hle
        rw [Nat.cast_add] at hr
        have hrest : r - weight ≤ rest.sum := by linarith
        have hsumrest : (0 : ℚ) < rest.sum := by linarith
        obtain ⟨k, hold⟩ := ih (by exact_mod_cast hsumrest) hrest
        exact ⟨k + 1, (stretchHolds_cons_succ hpos).mpr ⟨hlt, hold⟩⟩

/-- **Where an exact walk ends.** A walk that starts at no more than the sum of the weights does not
run off the end; it ends at the index whose stretch holds the start. -/
theorem walk_rat_eq_some_iff {weights : List Nat} {r : ℚ} {index i : Nat} {fallback : Option Nat}
    (hsum : 0 < weights.sum) (hr : r ≤ weights.sum) :
    walk r index fallback weights = some i ↔ ∃ k, i = index + k ∧ StretchHolds weights r k := by
  obtain ⟨k, hold⟩ := exists_stretchHolds hsum hr
  have hstop : stop? r index weights = some (index + k) := stop?_rat_eq_some_iff.mpr ⟨k, rfl, hold⟩
  rw [walk_eq_stop?_or, ← stop?_rat_eq_some_iff, hstop, Option.some_or]

theorem pickIndex_rat_eq_some_iff {weights : List Nat} {u : ℚ} {i : Nat} (hsum : 0 < weights.sum)
    (hu : u ≤ 1) :
    pickIndex weights weights.sum u = some i ↔ StretchHolds weights (u * weights.sum) i := by
  have hr : u * weights.sum ≤ weights.sum := mul_le_of_le_one_left (Nat.cast_nonneg _) hu
  have hpick : pickIndex weights weights.sum u = walk (u * (weights.sum : ℚ)) 0 none weights := rfl
  rw [hpick, walk_rat_eq_some_iff hsum hr]
  simp

/-! ## Counting fractions -/

/-- How many of the fractions `k / N` below one are at most `b / T`. -/
def fractionsUpTo (N T b : Nat) : Nat := ((Finset.range N).filter fun k => k * T ≤ b * N).card

theorem fractionsUpTo_eq {N T b : Nat} (hT : 0 < T) :
    fractionsUpTo N T b = min N (b * N / T + 1) := by
  have hset : (Finset.range N).filter (fun k => k * T ≤ b * N) =
      Finset.range (min N (b * N / T + 1)) := by
    ext k
    rw [Finset.mem_filter, Finset.mem_range, Finset.mem_range, Nat.lt_min, Nat.lt_succ_iff,
      Nat.le_div_iff_mul_le hT]
  rw [fractionsUpTo, hset, Finset.card_range]

/-- The count is the exact share or up to one more. -/
theorem fractionsUpTo_mul_bounds {N T b : Nat} (hT : 0 < T) (hb : b ≤ T) :
    b * N ≤ fractionsUpTo N T b * T ∧ fractionsUpTo N T b * T ≤ b * N + T := by
  have hlow : b * N / T * T ≤ b * N := Nat.div_mul_le_self _ _
  have hhigh : b * N < (b * N / T + 1) * T := by
    have hlt := Nat.lt_mul_div_succ (b * N) hT
    rwa [Nat.mul_comm T] at hlt
  have hall : b * N ≤ N * T := by
    rw [Nat.mul_comm N T]
    exact Nat.mul_le_mul_right N hb
  rw [fractionsUpTo_eq hT]
  rw [Nat.add_mul, Nat.one_mul] at hhigh
  rcases Nat.le_total N (b * N / T + 1) with hmin | hmin
  · have hmul := Nat.mul_le_mul_right T hmin
    rw [Nat.add_mul, Nat.one_mul] at hmul
    rw [Nat.min_eq_left hmin]
    omega
  · rw [Nat.min_eq_right hmin, Nat.add_mul, Nat.one_mul]
    omega

/-- How many fractions fall into the stretch of length `w` from `a` on. -/
def fractionsWithin (N T a w : Nat) : Nat :=
  ((Finset.range N).filter fun k =>
    k * T ≤ (a + w) * N ∧ (a = 0 ∨ a * N < k * T)).card

theorem fractionsWithin_zero (N T w : Nat) : fractionsWithin N T 0 w = fractionsUpTo N T w := by
  simp [fractionsWithin, fractionsUpTo]

theorem fractionsWithin_add {N T a w : Nat} (ha : 0 < a) :
    fractionsWithin N T a w + fractionsUpTo N T a = fractionsUpTo N T (a + w) := by
  have hne : a ≠ 0 := Nat.ne_of_gt ha
  have hmono : a * N ≤ (a + w) * N := Nat.mul_le_mul_right N (Nat.le_add_right a w)
  have hsplit := Finset.card_filter_add_card_filter_not
    (s := (Finset.range N).filter fun k => k * T ≤ (a + w) * N) (fun k => a * N < k * T)
  rw [Finset.filter_filter, Finset.filter_filter] at hsplit
  unfold fractionsWithin fractionsUpTo
  rw [← hsplit]
  congr 2
  · apply Finset.filter_congr
    intro k _
    simp [hne]
  · apply Finset.filter_congr
    intro k _
    omega

theorem fractionsWithin_mul_bounds {N T a w : Nat} (hT : 0 < T) (h : a + w ≤ T) :
    w * N ≤ (fractionsWithin N T a w + 1) * T ∧ fractionsWithin N T a w * T ≤ w * N + T := by
  obtain ⟨hlow, hhigh⟩ := fractionsUpTo_mul_bounds (N := N) hT h
  rw [Nat.add_mul a w N] at hlow hhigh
  rw [Nat.add_mul, Nat.one_mul]
  rcases Nat.eq_zero_or_pos a with rfl | ha
  · rw [Nat.zero_add] at hlow hhigh
    rw [fractionsWithin_zero]
    omega
  · obtain ⟨hlow', hhigh'⟩ := fractionsUpTo_mul_bounds (N := N) (b := a) hT (by omega)
    rw [← fractionsWithin_add ha, Nat.add_mul] at hlow hhigh
    omega

theorem stretchHolds_fraction_iff {weights : List Nat} {N k i : Nat} (hN : 0 < N) :
    StretchHolds weights (k / N * weights.sum) i ↔ 0 < weights.getD i 0 ∧
      k * weights.sum ≤ (sumBefore weights i + weights.getD i 0) * N ∧
        (sumBefore weights i = 0 ∨ sumBefore weights i * N < k * weights.sum) := by
  have hN' : (0 : ℚ) < N := by exact_mod_cast hN
  unfold StretchHolds
  rw [sumBefore_succ, div_mul_eq_mul_div, div_le_iff₀ hN', lt_div_iff₀ hN']
  refine and_congr (by omega) (and_congr ?_ (or_congr Iff.rfl ?_))
  · exact_mod_cast Iff.rfl
  · exact_mod_cast Iff.rfl

/-! ## Draws -/

/-- The numbers that draws start from are the fractions `k / 2 ^ 53`, by the upper bits of a word. -/
theorem unitOfWord_rat (w : UInt64) :
    unitOfWord ℚ w = (w.toNat / 2 ^ 11 : ℕ) / (2 ^ 53 : ℕ) := by
  have hshift : (w >>> 11).toNat = w.toNat / 2 ^ 11 := by
    rw [UInt64.toNat_shiftRight, Nat.shiftRight_eq_div_pow]
    rfl
  rw [← hshift]
  rfl

theorem drawIndex_rat_eq {weights : List Nat} (hsum : 0 < weights.sum) (s : WordStream) :
    (drawIndex ℚ weights weights.sum s).1 =
      pickIndex weights weights.sum ((s.next.1.toNat / 2 ^ 11 : ℕ) / (2 ^ 53 : ℕ) : ℚ) := by
  unfold drawIndex
  rw [if_neg (Nat.ne_of_gt hsum), unitOfWord_rat]

theorem card_pickIndex_eq {weights : List Nat} (hsum : 0 < weights.sum) {N : Nat} (hN : 0 < N)
    (i : Nat) :
    ((Finset.range N).filter fun k : ℕ =>
      pickIndex weights weights.sum ((k : ℚ) / N) = some i).card =
      if 0 < weights.getD i 0 then
        fractionsWithin N weights.sum (sumBefore weights i) (weights.getD i 0)
      else 0 := by
  have hpick : ∀ k ∈ Finset.range N, pickIndex weights weights.sum ((k : ℚ) / N) = some i ↔
      0 < weights.getD i 0 ∧
        k * weights.sum ≤ (sumBefore weights i + weights.getD i 0) * N ∧
          (sumBefore weights i = 0 ∨ sumBefore weights i * N < k * weights.sum) := by
    intro k hk
    have hle : (k : ℚ) / N ≤ 1 := by
      rw [div_le_one (by exact_mod_cast hN)]
      exact_mod_cast (Finset.mem_range.mp hk).le
    rw [pickIndex_rat_eq_some_iff hsum hle, stretchHolds_fraction_iff hN]
  rw [Finset.filter_congr hpick]
  split
  · rename_i hpos
    simp only [hpos, true_and]
    rfl
  · rename_i hpos
    simp only [hpos, false_and, Finset.filter_false, Finset.card_empty]

theorem card_pickIndex_near_share {weights : List Nat} (hsum : 0 < weights.sum) {N : Nat}
    (hN : 0 < N) (i : Nat) :
    |(((Finset.range N).filter fun k : ℕ =>
        pickIndex weights weights.sum ((k : ℚ) / N) = some i).card : ℚ) -
      N * weights.getD i 0 / weights.sum| ≤ 1 := by
  have hsum' : (0 : ℚ) < weights.sum := by exact_mod_cast hsum
  have hstretch : sumBefore weights i + weights.getD i 0 ≤ weights.sum := by
    rw [← sumBefore_succ]
    exact sumBefore_le_sum weights (i + 1)
  obtain ⟨hlow, hhigh⟩ := fractionsWithin_mul_bounds (N := N) hsum hstretch
  rw [card_pickIndex_eq hsum hN]
  split
  · have hlow' : (N : ℚ) * weights.getD i 0 ≤
        (fractionsWithin N weights.sum (sumBefore weights i) (weights.getD i 0) + 1) *
          weights.sum := by
      rw [mul_comm (N : ℚ)]
      exact_mod_cast hlow
    have hhigh' : (fractionsWithin N weights.sum (sumBefore weights i) (weights.getD i 0) : ℚ) *
        weights.sum ≤ N * weights.getD i 0 + weights.sum := by
      rw [mul_comm (N : ℚ)]
      exact_mod_cast hhigh
    rw [abs_le, neg_le_sub_iff_le_add, sub_le_iff_le_add, div_le_iff₀ hsum']
    refine ⟨hlow', ?_⟩
    rw [← div_self hsum'.ne', ← add_div, le_div_iff₀ hsum']
    linarith
  · rename_i hzero
    rw [Nat.eq_zero_of_not_pos hzero]
    simp

/-- **Draws are proportional to the weights, to within one.** A draw starts from one of `2 ^ 53`
numbers, which the upper bits of its word choose. How many of them end at an index differs from the
index's share of the weights by at most one. -/
theorem pick_count_near_share {weights : List Nat} (hsum : 0 < weights.sum) (i : Nat) :
    |(((Finset.range (2 ^ 53)).filter fun k : ℕ =>
        pickIndex weights weights.sum ((k : ℚ) / 2 ^ 53) = some i).card : ℚ) -
      2 ^ 53 * weights.getD i 0 / weights.sum| ≤ 1 ∧
    ∀ s : WordStream, ∃ k < 2 ^ 53, k = s.next.1.toNat / 2 ^ 11 ∧
      (drawIndex ℚ weights weights.sum s).1 =
        pickIndex weights weights.sum ((k : ℚ) / 2 ^ 53) := by
  have hcast : ((2 ^ 53 : ℕ) : ℚ) = 2 ^ 53 := by norm_num
  refine ⟨?_, ?_⟩
  · have hnear := card_pickIndex_near_share hsum (Nat.two_pow_pos 53) i
    rwa [hcast] at hnear
  · intro s
    refine ⟨s.next.1.toNat / 2 ^ 11, ?_, rfl, ?_⟩
    · have hword := s.next.1.toNat_lt
      omega
    · rw [drawIndex_rat_eq hsum, hcast]

/-- A quarter of the numbers, to within one, pick the last of these weights. -/
theorem pick_count_quarter :
    0 < ([0, 3, 0, 1] : List ℕ).sum ∧
      |(((Finset.range (2 ^ 53)).filter fun k : ℕ =>
          pickIndex [0, 3, 0, 1] ([0, 3, 0, 1] : List ℕ).sum ((k : ℚ) / 2 ^ 53) = some 3).card : ℚ) -
        2 ^ 53 / 4| ≤ 1 := by
  have hsum : 0 < ([0, 3, 0, 1] : List ℕ).sum := by decide
  have hnear := (pick_count_near_share hsum 3).1
  have hshare : (2 : ℚ) ^ 53 * (([0, 3, 0, 1] : List ℕ).getD 3 0 : ℕ) /
      (([0, 3, 0, 1] : List ℕ).sum : ℕ) = 2 ^ 53 / 4 := by
    norm_num
  rw [hshare] at hnear
  exact ⟨hsum, hnear⟩

end Readout
