import Mathlib
import Readout.Proofs.Fit.Divisions
import Readout.Proofs.Rationals

/-!
# The exact statistic

Computed without rounding, a term is the square of what was observed over the recorded count, up to
what adds up to a constant over all terms (`fitTerm_rat_eq`). Where nothing impossible was observed,
no observation is lost with the entries of count zero (`sum_observed_positiveEntries`), so that the
terms sum to a closed form (`sum_fitTerm_rat`). Every term is at least zero, and zero exactly where
an outcome was observed in proportion to its count (`fitTerm_rat_eq_zero_iff`).
-/

namespace Readout

/-! ## One term -/

section Term

variable {t : DistributionTable} {shots count : Nat}

theorem fitTerm_rat (t : DistributionTable) (shots count seen : Nat) :
    fitTerm ℚ t shots count seen =
      (seen - shots * (count / t.total)) ^ 2 / (shots * (count / t.total)) := by
  rw [sq, ← Arithmetic.share_rat]
  rfl

theorem fitTerm_rat_nonneg (t : DistributionTable) (shots count seen : Nat) :
    0 ≤ fitTerm ℚ t shots count seen := by
  rw [fitTerm_rat]
  positivity

/-- The square multiplied out. -/
theorem fitTerm_rat_eq (hshots : 0 < shots) (hcount : 0 < count) (seen : Nat) :
    fitTerm ℚ t shots count seen =
      t.total / shots * (seen ^ 2 / count) + (shots / t.total * count - 2 * seen) := by
  have hshots' : (shots : ℚ) ≠ 0 := Nat.cast_ne_zero.mpr (Nat.ne_of_gt hshots)
  have hcount' : (count : ℚ) ≠ 0 := Nat.cast_ne_zero.mpr (Nat.ne_of_gt hcount)
  have htotal : (t.total : ℚ) ≠ 0 := Nat.cast_ne_zero.mpr (Nat.ne_of_gt t.total_pos)
  rw [fitTerm_rat]
  field_simp
  ring

theorem fitTerm_rat_eq_zero_iff (hshots : 0 < shots) (hcount : 0 < count) {seen : Nat} :
    fitTerm ℚ t shots count seen = 0 ↔ seen * t.total = count * shots := by
  have hshots' : (shots : ℚ) ≠ 0 := Nat.cast_ne_zero.mpr (Nat.ne_of_gt hshots)
  have hcount' : (count : ℚ) ≠ 0 := Nat.cast_ne_zero.mpr (Nat.ne_of_gt hcount)
  have htotal : (t.total : ℚ) ≠ 0 := Nat.cast_ne_zero.mpr (Nat.ne_of_gt t.total_pos)
  have hexpected : (shots * (count / t.total) : ℚ) ≠ 0 :=
    mul_ne_zero hshots' (div_ne_zero hcount' htotal)
  rw [fitTerm_rat, div_eq_zero_iff, or_iff_left hexpected, sq_eq_zero_iff, sub_eq_zero,
    ← mul_div_assoc, eq_div_iff htotal, mul_comm (shots : ℚ)]
  exact_mod_cast Iff.rfl

end Term

/-! ## All terms -/

/-- A sum over different keys that leaves out none with a value is the sum of all values. -/
theorem Histogram.sum_map_getD (h : Histogram) {keys : List Bitstring} (hnodup : keys.Nodup)
    (hkeys : ∀ key, 0 < h.getD key 0 → key ∈ keys) :
    (keys.map fun key => h.getD key 0).sum = h.total := by
  have hvalues : h.values = h.keys.map fun key => h.getD key 0 := by
    rw [OrderedMap.values, OrderedMap.keys, List.map_map]
    refine List.map_congr_left fun e he => ?_
    rw [Function.comp_apply, OrderedMap.getD, OrderedMap.get?_eq_some_iff.mpr he, Option.getD_some]
  have hnodup' : h.keys.Nodup := h.nodup_keys
  rw [Histogram.total, hvalues, ← List.sum_toFinset _ hnodup, ← List.sum_toFinset _ hnodup']
  refine Finset.sum_congr_of_eq_on_inter (fun key _ hnot => ?_) (fun key _ hnot => ?_)
    fun _ _ _ => rfl
  · -- a key without an entry has no value
    by_contra hne
    obtain ⟨n, hmem, -⟩ := Histogram.getD_pos_iff.mp (Nat.pos_of_ne_zero hne)
    exact hnot (List.mem_toFinset.mpr (List.mem_map_of_mem hmem))
  · by_contra hne
    exact hnot (List.mem_toFinset.mpr (hkeys key (Nat.pos_of_ne_zero hne)))

section Terms

variable {t : DistributionTable} {observed : Histogram}

theorem sum_observed_positiveEntries (h : ¬ Impossible observed t) :
    (t.positiveEntries.map fun e => observed.getD e.1 0).sum = observed.total := by
  have hnodup : (t.positiveEntries.map (·.1)).Nodup :=
    t.counts.nodup_keys.sublist (List.filter_sublist.map _)
  have hkeys : ∀ key, 0 < observed.getD key 0 → key ∈ t.positiveEntries.map (·.1) := by
    intro key hpos
    have hcount : 0 < t.count key := Nat.pos_of_ne_zero fun hzero => h ⟨key, hpos, hzero⟩
    exact List.mem_map_of_mem (DistributionTable.mem_positiveEntries.mpr ⟨rfl, hcount⟩)
  rw [← observed.sum_map_getD hnodup hkeys, List.map_map]
  rfl

theorem sum_fitTerm_rat (htotal : 0 < observed.total) (h : ¬ Impossible observed t) :
    (t.positiveEntries.map fun e =>
        fitTerm ℚ t observed.total e.2 (observed.getD e.1 0)).sum =
      t.total * (t.positiveEntries.map fun e => (observed.getD e.1 0 : ℚ) ^ 2 / e.2).sum /
        observed.total - observed.total := by
  have hterm : ∀ e ∈ t.positiveEntries, fitTerm ℚ t observed.total e.2 (observed.getD e.1 0) =
      t.total / observed.total * ((observed.getD e.1 0 : ℚ) ^ 2 / e.2) +
        (observed.total / t.total * (e.2 : ℚ) + -2 * (observed.getD e.1 0 : ℚ)) := by
    intro e he
    rw [fitTerm_rat_eq htotal (DistributionTable.mem_positiveEntries.mp he).2]
    ring
  have hseen : (t.positiveEntries.map fun e => (observed.getD e.1 0 : ℚ)).sum = observed.total := by
    rw [← sum_observed_positiveEntries h, Nat.cast_list_sum, List.map_map]
    rfl
  have hcounts : (t.positiveEntries.map fun e => (e.2 : ℚ)).sum = t.total := by
    rw [← t.sum_positiveEntries, Nat.cast_list_sum, List.map_map]
    rfl
  have hne : (t.total : ℚ) ≠ 0 := Nat.cast_ne_zero.mpr (Nat.ne_of_gt t.total_pos)
  rw [List.map_congr_left hterm, List.sum_map_add, List.sum_map_add, List.sum_map_mul_left,
    List.sum_map_mul_left, List.sum_map_mul_left, hseen, hcounts]
  field_simp
  ring

theorem forall_fitTerm_rat_nonneg : ∀ x ∈ t.positiveEntries.map fun e =>
    fitTerm ℚ t observed.total e.2 (observed.getD e.1 0), 0 ≤ x :=
  List.forall_mem_map.mpr fun e _ => fitTerm_rat_nonneg t observed.total e.2 _

/-- All terms are zero exactly if every outcome was observed in proportion to its count. -/
theorem sum_fitTerm_rat_eq_zero_iff (htotal : 0 < observed.total)
    (h : ¬ Impossible observed t) :
    (t.positiveEntries.map fun e =>
        fitTerm ℚ t observed.total e.2 (observed.getD e.1 0)).sum = 0 ↔
      ∀ key, observed.getD key 0 * t.total = t.count key * observed.total := by
  constructor
  · intro hzero key
    by_cases hcount : t.count key = 0
    · have hseen : observed.getD key 0 = 0 := by
        by_contra hne
        exact h ⟨key, Nat.pos_of_ne_zero hne, hcount⟩
      rw [hseen, hcount, Nat.zero_mul, Nat.zero_mul]
    · have hpos := Nat.pos_of_ne_zero hcount
      have hmem := DistributionTable.mem_positiveEntries.mpr ⟨rfl, hpos⟩
      have hterm := List.all_zero_of_le_zero_le_of_sum_eq_zero forall_fitTerm_rat_nonneg hzero
        (List.mem_map_of_mem hmem)
      exact (fitTerm_rat_eq_zero_iff htotal hpos).mp hterm
  · intro hall
    refine List.sum_eq_zero (List.forall_mem_map.mpr ?_)
    rintro ⟨key, n⟩ hmem
    obtain ⟨rfl, hpos⟩ := DistributionTable.mem_positiveEntries.mp hmem
    exact (fitTerm_rat_eq_zero_iff htotal hpos).mpr (hall key)

/-- **The exact statistic in closed form,** for whatever was observed, as long as its number fits a
word. It is impossible exactly if something was observed that is on record with no count or not at
all. Otherwise it is a number that is at least zero, and zero exactly if each outcome has the same
share of the observations as of the record; and where anything was observed, it is the total times
the sum of the squares observed over the counts, by the number observed, less that number. -/
theorem chiSquared_rat_closed_form {observedTotal : Nat}
    (hsum : sumWord? observed.values = some observedTotal) :
    (chiSquared ℚ observed t = .impossible ↔
      0 < observedTotal ∧ ∃ key, 0 < observed.getD key 0 ∧ t.counts.getD key 0 = 0) ∧
    (chiSquared ℚ observed t ≠ .impossible → ∃ x, chiSquared ℚ observed t = .statistic x ∧
      0 ≤ x ∧
      (x = 0 ↔ ∀ key, observed.getD key 0 * t.total = t.counts.getD key 0 * observedTotal) ∧
      (0 < observedTotal → x =
        t.total * (t.positiveEntries.map fun e => (observed.getD e.1 0 : ℚ) ^ 2 / e.2).sum /
          observedTotal - observedTotal)) := by
  obtain rfl : observed.total = observedTotal := (sumWord?_eq_some_iff.mp hsum).1
  simp only [← t.count_eq_getD]
  refine ⟨?_, fun hfit => ?_⟩
  · rw [chiSquared_eq_impossible_iff]
    exact ⟨fun h => ⟨h.total_pos, h⟩, And.right⟩
  · have h : ¬ Impossible observed t := mt chiSquared_eq_impossible_iff.mpr hfit
    rcases Nat.eq_zero_or_pos observed.total with htotal | htotal
    · refine ⟨0, chiSquared_of_total_eq_zero htotal, le_refl 0, iff_of_true rfl fun key => ?_,
        fun hpos => absurd htotal (Nat.ne_of_gt hpos)⟩
      have hseen : observed.getD key 0 = 0 :=
        Nat.eq_zero_of_le_zero (htotal ▸ observed.getD_le_total key)
      rw [hseen, htotal, Nat.zero_mul, Nat.mul_zero]
    · refine ⟨_, chiSquared_of_possible (Nat.ne_of_gt htotal) h, ?_⟩
      rw [Arithmetic.sum_rat]
      exact ⟨List.sum_nonneg forall_fitTerm_rat_nonneg, sum_fitTerm_rat_eq_zero_iff htotal h,
        fun _ => sum_fitTerm_rat htotal h⟩

/-- Four reads of the equal bits, two of either outcome. -/
def evenReads : Histogram :=
  OrderedMap.ofList (DistributionTable.equalBits.entries.map fun e => (e.1, 2))

/-- Bits that agree as ones three times as often: `4 * (4 / 1 + 4 / 3) / 4 - 4`. -/
theorem evenReads_fit :
    sumWord? evenReads.values = some 4 ∧
      chiSquared ℚ evenReads DistributionTable.equalBits ≠ .impossible ∧
      chiSquared ℚ evenReads DistributionTable.equalBits = .statistic (4 / 3) := by
  have hsum : sumWord? evenReads.values = some 4 := by decide
  have hfit : chiSquared ℚ evenReads DistributionTable.equalBits ≠ .impossible := by
    decide +kernel
  obtain ⟨x, hx, -, -, hform⟩ :=
    (chiSquared_rat_closed_form (t := DistributionTable.equalBits) hsum).2 hfit
  refine ⟨hsum, hfit, hx.trans (congrArg Fit.statistic ((hform (by decide)).trans ?_))⟩
  decide +kernel

end Terms

end Readout
