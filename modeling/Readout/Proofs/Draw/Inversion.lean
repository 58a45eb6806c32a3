import Readout.Proofs.Draw.Proportion
import Readout.Proofs.Draw.Support

/-!
# Draws by inverting the running sums

Without rounding, the walk looks up where the running sums of the weights first reach its start
(`stop?_rat_eq_some_iff_isLeast`): a start that is one of the sums belongs to the weight that ends
there, and the start zero to the first weight that is not zero. Only a total that overstates the
weights can lie beyond all sums (`exists_stop?_rat`); the walk then falls back to the last weight
that is not zero (`lastPositive?_eq_some_iff`). The later the start, the later the end
(`pickIndex_rat_mono`).
-/

namespace Readout

variable {weights : List Nat} {r : ℚ} {i k : Nat}

/-! ## Running sums -/

/-- The running sum has come to `r` at an index, and the weight there is not zero. -/
def Reaches (weights : List Nat) (r : ℚ) (k : Nat) : Prop :=
  0 < weights.getD k 0 ∧ r ≤ sumBefore weights (k + 1)

/-- The indices of the weights other than zero. -/
def positiveIndices (weights : List Nat) : Set Nat := {k | 0 < weights.getD k 0}

theorem sumBefore_mono (weights : List Nat) : Monotone (sumBefore weights) := by
  refine monotone_nat_of_le_succ fun k => ?_
  rw [sumBefore_succ]
  exact Nat.le_add_right _ _

/-- A running sum other than zero was reached at a weight other than zero. -/
theorem exists_sumBefore_succ_eq (h : 0 < sumBefore weights k) :
    ∃ j < k, 0 < weights.getD j 0 ∧ sumBefore weights (j + 1) = sumBefore weights k := by
  induction k with
  | zero => exact absurd h (Nat.lt_irrefl 0)
  | succ k ih =>
    by_cases hzero : weights.getD k 0 = 0
    · have hsame : sumBefore weights (k + 1) = sumBefore weights k := by
        rw [sumBefore_succ, hzero, Nat.add_zero]
      rw [hsame] at h ⊢
      obtain ⟨j, hj, hpos, hsum⟩ := ih h
      exact ⟨j, Nat.lt_succ_of_lt hj, hpos, hsum⟩
    · exact ⟨k, Nat.lt_succ_self k, Nat.pos_of_ne_zero hzero, rfl⟩

/-- The stretch that holds `r` is the first at whose end the running sum has come to `r`. -/
theorem stretchHolds_iff_isLeast :
    StretchHolds weights r k ↔ IsLeast {j | Reaches weights r j} k := by
  have hpos_iff : sumBefore weights k < sumBefore weights (k + 1) ↔ 0 < weights.getD k 0 := by
    rw [sumBefore_succ]
    omega
  constructor
  · rintro ⟨hlt, hle, hbelow⟩
    refine ⟨⟨hpos_iff.mp hlt, hle⟩, ?_⟩
    rintro j ⟨hpos, hreach⟩
    by_contra hjk
    have hmono : sumBefore weights (j + 1) ≤ sumBefore weights k :=
      sumBefore_mono weights (Nat.lt_of_not_le hjk)
    rcases hbelow with hzero | hr
    · rw [hzero, sumBefore_succ] at hmono
      omega
    · have hcast : (sumBefore weights (j + 1) : ℚ) ≤ sumBefore weights k := by
        exact_mod_cast hmono
      linarith
  · rintro ⟨⟨hpos, hle⟩, hleast⟩
    refine ⟨hpos_iff.mpr hpos, hle, ?_⟩
    by_contra hbelow
    rw [not_or, not_lt] at hbelow
    obtain ⟨hne, hr⟩ := hbelow
    -- the sum in front of `k` is at least `r` already, and the weight that ends it comes first
    obtain ⟨j, hj, hjpos, hjsum⟩ := exists_sumBefore_succ_eq (Nat.pos_of_ne_zero hne)
    have hreach : Reaches weights r j := ⟨hjpos, hjsum ▸ hr⟩
    exact absurd (hleast hreach) (Nat.not_le.mpr hj)

/-! ## Where the exact walk stops -/

theorem stop?_rat_eq_some_iff_isLeast :
    stop? r 0 weights = some i ↔ IsLeast {k | Reaches weights r k} i := by
  rw [stop?_rat_eq_some_iff, ← stretchHolds_iff_isLeast]
  simp

theorem stop?_rat_eq_none_iff : stop? r 0 weights = none ↔ ∀ k, ¬ Reaches weights r k := by
  constructor
  · intro hnone k hreach
    obtain ⟨i, hi⟩ : ∃ i, IsLeast {k | Reaches weights r k} i :=
      ⟨_, WellFounded.min_mem Nat.lt_wfRel.wf _ ⟨k, hreach⟩,
        fun j hj => Nat.not_lt.mp (WellFounded.not_lt_min Nat.lt_wfRel.wf _ hj)⟩
    rw [stop?_rat_eq_some_iff_isLeast.mpr hi] at hnone
    cases hnone
  · intro hreach
    cases hstop : stop? r 0 weights with
    | none => rfl
    | some i => exact absurd (stop?_rat_eq_some_iff_isLeast.mp hstop).1 (hreach i)

/-- A total that does not overstate the weights keeps every walk from running off the end. -/
theorem exists_stop?_rat {total : Nat} {u : ℚ} (htotal : 0 < total) (hle : total ≤ weights.sum)
    (hu : u ≤ 1) : ∃ i, stop? (u * total) 0 weights = some i := by
  have hcast : (total : ℚ) ≤ weights.sum := by exact_mod_cast hle
  have hr : u * total ≤ weights.sum :=
    (mul_le_of_le_one_left (Nat.cast_nonneg total) hu).trans hcast
  obtain ⟨i, hold⟩ := exists_stretchHolds (Nat.lt_of_lt_of_le htotal hle) hr
  exact ⟨i, stop?_rat_eq_some_iff_isLeast.mpr (stretchHolds_iff_isLeast.mp hold)⟩

/-! ## The fallback -/

theorem mem_positiveIndices :
    k ∈ positiveIndices weights ↔ ∃ w, weights[k]? = some w ∧ 0 < w := by
  show 0 < weights.getD k 0 ↔ _
  rw [List.getD_eq_getElem?_getD]
  cases weights[k]? <;> simp

theorem isGreatest_positiveIndices_cons_succ {weight : Nat} {rest : List Nat} :
    IsGreatest (positiveIndices (weight :: rest)) (k + 1) ↔
      IsGreatest (positiveIndices rest) k := by
  refine and_congr Iff.rfl ⟨fun h j hj => ?_, fun h j hj => ?_⟩
  · exact Nat.le_of_succ_le_succ (h (show j + 1 ∈ positiveIndices (weight :: rest) from hj))
  · cases j with
    | zero => exact Nat.zero_le _
    | succ j => exact Nat.succ_le_succ (h hj)

theorem isGreatest_positiveIndices_cons_zero {weight : Nat} {rest : List Nat} :
    IsGreatest (positiveIndices (weight :: rest)) 0 ↔ weight ≠ 0 ∧ ∀ w ∈ rest, w = 0 := by
  refine and_congr Nat.pos_iff_ne_zero ⟨fun h w hw => ?_, fun h j hj => ?_⟩
  · obtain ⟨j, hj⟩ := List.getElem?_of_mem hw
    by_contra hne
    have hmem : j + 1 ∈ positiveIndices (weight :: rest) :=
      mem_positiveIndices.mpr ⟨w, hj, Nat.pos_of_ne_zero hne⟩
    exact absurd (h hmem) (Nat.not_succ_le_zero j)
  · cases j with
    | zero => exact Nat.le_refl 0
    | succ j =>
      obtain ⟨w, hw, hpos⟩ := mem_positiveIndices.mp hj
      exact absurd (h w (List.mem_of_getElem? hw)) (Nat.ne_of_gt hpos)

theorem lastPositive?_eq_some_iff {index : Nat} {fallback : Option Nat} :
    lastPositive? index fallback weights = some i ↔
      (∃ k, i = index + k ∧ IsGreatest (positiveIndices weights) k) ∨
        (∀ w ∈ weights, w = 0) ∧ fallback = some i := by
  induction weights generalizing index fallback with
  | nil =>
    have hempty : ∀ k, ¬ IsGreatest (positiveIndices []) k := fun k hk => Nat.lt_irrefl 0 hk.1
    simp [lastPositive?, hempty]
  | cons weight rest ih =>
    rw [lastPositive?, ih]
    constructor
    · rintro (⟨k, rfl, hk⟩ | ⟨hrest, hfallback⟩)
      · exact .inl ⟨k + 1, by omega, isGreatest_positiveIndices_cons_succ.mpr hk⟩
      · by_cases hzero : weight = 0
        · rw [if_pos hzero] at hfallback
          exact .inr ⟨List.forall_mem_cons.mpr ⟨hzero, hrest⟩, hfallback⟩
        · rw [if_neg hzero] at hfallback
          obtain rfl := Option.some.inj hfallback
          exact .inl ⟨0, rfl, isGreatest_positiveIndices_cons_zero.mpr ⟨hzero, hrest⟩⟩
    · rintro (⟨k, rfl, hk⟩ | ⟨hall, hfallback⟩)
      · cases k with
        | zero =>
          obtain ⟨hne, hrest⟩ := isGreatest_positiveIndices_cons_zero.mp hk
          exact .inr ⟨hrest, if_neg hne⟩
        | succ k => exact .inl ⟨k, by omega, isGreatest_positiveIndices_cons_succ.mp hk⟩
      · obtain ⟨hzero, hrest⟩ := List.forall_mem_cons.mp hall
        exact .inr ⟨hrest, by rw [if_pos hzero, hfallback]⟩

/-! ## Picks -/

variable {total : Nat} {u v : ℚ}

theorem pickIndex_rat_eq_or (weights : List Nat) (total : Nat) (u : ℚ) :
    pickIndex weights total u =
      (stop? (u * total) 0 weights).or (lastPositive? 0 none weights) :=
  walk_eq_stop?_or (u * (total : ℚ)) 0 none weights

/-- A pick is the least index at which the running sums reach the start, if there is one, and the
last index of a positive weight otherwise. -/
theorem pickIndex_rat_eq_some_iff_inverts :
    pickIndex weights total u = some i ↔
      IsLeast {k | Reaches weights (u * total) k} i ∨
        (∀ k, ¬ Reaches weights (u * total) k) ∧ IsGreatest (positiveIndices weights) i := by
  rw [pickIndex_rat_eq_or, Option.or_eq_some_iff, stop?_rat_eq_some_iff_isLeast,
    stop?_rat_eq_none_iff, lastPositive?_eq_some_iff]
  simp

theorem pickIndex_rat_mono (huv : u ≤ v) (hi : pickIndex weights total u = some i) :
    ∃ j, pickIndex weights total v = some j ∧ i ≤ j := by
  have hsome : pickIndex weights total v ≠ none := by
    intro hnone
    have hzero : ∀ w ∈ weights, w = 0 := pickIndex_eq_none_iff.mp hnone
    rw [pickIndex_eq_none_iff.mpr hzero] at hi
    cases hi
  obtain ⟨j, hj⟩ := Option.ne_none_iff_exists'.mp hsome
  refine ⟨j, hj, ?_⟩
  have hstart : u * total ≤ v * total := mul_le_mul_of_nonneg_right huv (Nat.cast_nonneg total)
  have hreaches : ∀ k, Reaches weights (v * total) k → Reaches weights (u * total) k :=
    fun k hk => ⟨hk.1, hstart.trans hk.2⟩
  rcases pickIndex_rat_eq_some_iff_inverts.mp hi with hi | ⟨hnone, hi⟩ <;>
    rcases pickIndex_rat_eq_some_iff_inverts.mp hj with hj | ⟨-, hj⟩
  · exact hi.2 (hreaches j hj.1)
  · exact hj.2 hi.1.1
  · exact absurd (hreaches j hj.1) (hnone j)
  · exact Nat.le_of_eq (hi.unique hj)

theorem unitOfWord_rat_mem (w : UInt64) : unitOfWord ℚ w ∈ Set.Ico (0 : ℚ) 1 := by
  have hlt : w.toNat / 2 ^ 11 < 2 ^ 53 := by
    have hword := w.toNat_lt
    omega
  rw [unitOfWord_rat]
  refine ⟨div_nonneg (Nat.cast_nonneg _) (Nat.cast_nonneg _), ?_⟩
  rw [div_lt_one (by norm_num)]
  exact_mod_cast hlt

/-- **An exact draw inverts the running sums.** With a positive total and a number `u` in `[0, 1)`
it picks the least index of a positive weight at which the running sums reach `u * total`; where
they reach it nowhere, the last index of a positive weight; and nothing if no weight is positive.
The walk stops by itself unless the total overstates the weights. A greater `u` never picks a lesser
index. The numbers that words stand for are such `u`. -/
theorem pickIndex_inverts_running_sums (weights : List Nat) {total : Nat} (htotal : 0 < total) :
    (∀ u ∈ Set.Ico (0 : ℚ) 1,
      (∀ i, pickIndex weights total u = some i ↔
        IsLeast {k | Reaches weights (u * total) k} i ∨
          (∀ k, ¬ Reaches weights (u * total) k) ∧ IsGreatest (positiveIndices weights) i) ∧
      (pickIndex weights total u = none ↔ ∀ w ∈ weights, w = 0) ∧
      pickIndex weights total u =
        (stop? (u * total) 0 weights).or (lastPositive? 0 none weights) ∧
      (total ≤ weights.sum → ∃ i, stop? (u * total) 0 weights = some i)) ∧
    (∀ u ∈ Set.Ico (0 : ℚ) 1, ∀ v ∈ Set.Ico (0 : ℚ) 1, u ≤ v →
      ∀ i, pickIndex weights total u = some i →
        ∃ j, pickIndex weights total v = some j ∧ i ≤ j) ∧
    ∀ s : WordStream, unitOfWord ℚ s.next.1 ∈ Set.Ico (0 : ℚ) 1 ∧
      (drawIndex ℚ weights total s).1 = pickIndex weights total (unitOfWord ℚ s.next.1) := by
  refine ⟨fun u hu => ⟨?_, ?_, ?_, ?_⟩, fun u _ v _ huv i hi => ?_, fun s => ⟨?_, ?_⟩⟩
  · intro i
    exact pickIndex_rat_eq_some_iff_inverts
  · exact pickIndex_eq_none_iff
  · exact pickIndex_rat_eq_or weights total u
  · intro hle
    exact exists_stop?_rat htotal hle hu.2.le
  · exact pickIndex_rat_mono huv hi
  · exact unitOfWord_rat_mem s.next.1
  · exact fst_drawIndex ℚ weights s (Nat.ne_of_gt htotal)

/-- A start that is a running sum goes to the weight that ends there, and a later one not before it.
With a total of a thousand for weights of seven a start can lie beyond all sums. -/
theorem pickIndex_at_sum_and_beyond :
    (0 < 7 ∧ (3 / 7 : ℚ) ∈ Set.Ico (0 : ℚ) 1 ∧ (1 / 2 : ℚ) ∈ Set.Ico (0 : ℚ) 1 ∧
      (3 / 7 : ℚ) ≤ 1 / 2 ∧ 7 ≤ [0, 3, 0, 4].sum ∧
      (∃ i, stop? (3 / 7 * (7 : ℕ) : ℚ) 0 [0, 3, 0, 4] = some i) ∧
      pickIndex [0, 3, 0, 4] 7 (3 / 7 : ℚ) = some 1 ∧
      ∃ j, pickIndex [0, 3, 0, 4] 7 (1 / 2 : ℚ) = some j ∧ 1 ≤ j) ∧
    0 < 1000 ∧ (999 / 1000 : ℚ) ∈ Set.Ico (0 : ℚ) 1 ∧
      pickIndex [3, 4, 0] 1000 (999 / 1000 : ℚ) = some 1 := by
  have hsum : (3 / 7 : ℚ) ∈ Set.Ico (0 : ℚ) 1 := by constructor <;> norm_num
  have hlater : (1 / 2 : ℚ) ∈ Set.Ico (0 : ℚ) 1 := by constructor <;> norm_num
  have hbeyond : (999 / 1000 : ℚ) ∈ Set.Ico (0 : ℚ) 1 := by constructor <;> norm_num
  have hle : (3 / 7 : ℚ) ≤ 1 / 2 := by norm_num
  obtain ⟨hpick, hmono, -⟩ :=
    pickIndex_inverts_running_sums [0, 3, 0, 4] (by decide : 0 < 7)
  obtain ⟨hpick', -, -⟩ :=
    pickIndex_inverts_running_sums [3, 4, 0] (by decide : 0 < 1000)
  have hone : pickIndex [0, 3, 0, 4] 7 (3 / 7 : ℚ) = some 1 := by
    refine ((hpick _ hsum).1 1).mpr (.inl ⟨⟨by decide, ?_⟩, ?_⟩)
    · norm_num [sumBefore]
    · rintro k ⟨hpos, -⟩
      cases k with
      | zero => exact absurd hpos (by decide)
      | succ k => exact Nat.succ_le_succ (Nat.zero_le k)
  have hlast : IsGreatest (positiveIndices [3, 4, 0]) 1 :=
    isGreatest_positiveIndices_cons_succ.mpr
      (isGreatest_positiveIndices_cons_zero.mpr ⟨by decide, by decide⟩)
  have hfallback : pickIndex [3, 4, 0] 1000 (999 / 1000 : ℚ) = some 1 := by
    refine ((hpick' _ hbeyond).1 1).mpr (.inr ⟨?_, hlast⟩)
    rintro k ⟨-, hreach⟩
    have hall : (sumBefore [3, 4, 0] (k + 1) : ℚ) ≤ 7 := by
      exact_mod_cast sumBefore_le_sum [3, 4, 0] (k + 1)
    have hstart : (999 / 1000 : ℚ) * (1000 : ℕ) = 999 := by norm_num
    rw [hstart] at hreach
    linarith
  exact ⟨⟨by decide, hsum, hlater, hle, by decide, (hpick _ hsum).2.2.2 (by decide), hone,
    hmono _ hsum _ hlater hle 1 hone⟩, by decide, hbeyond, hfallback⟩

end Readout
