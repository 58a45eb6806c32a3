import Readout.Proofs.Draw.ZeroCounts
import Readout.Proofs.WordSums

/-!
# What a fit divides by

A statistic has two early exits and sums a term for each positive entry of the table otherwise
(`chiSquared_of_possible`). Written down as a formula instead of being carried out, it shows what it
divides by: the total of the table, and in each term the number of occurrences expected
(`of_mem_divisors_chiSquared`). The integers that these are computed from are positive. What a table
draws itself is never impossible under it (`not_impossible_histogram`).
-/

namespace Readout

/-! ## Formulas -/

/-- The operations by which a number is computed, written down. -/
inductive Formula
  | whole (n : Nat)
  | emptySum
  | sum (x y : Formula)
  | difference (x y : Formula)
  | product (x y : Formula)
  | quotient (x y : Formula)
  deriving DecidableEq

namespace Formula

/-- Computing with formulas writes the operations down. No formula counts as zero or below. -/
instance : Arithmetic Formula where
  add := sum
  sub := difference
  mul := product
  div := quotient
  ofNat := whole
  emptySum := emptySum
  isNonpos _ := false

/-- Carries the operations out. -/
def value (α : Type) [Arithmetic α] : Formula → α
  | whole n => Arithmetic.ofNat n
  | emptySum => Arithmetic.emptySum
  | sum x y => x.value α + y.value α
  | difference x y => x.value α - y.value α
  | product x y => x.value α * y.value α
  | quotient x y => x.value α / y.value α

/-- All that a formula divides by, at any depth. -/
def divisors : Formula → List Formula
  | whole _ => []
  | emptySum => []
  | sum x y => x.divisors ++ y.divisors
  | difference x y => x.divisors ++ y.divisors
  | product x y => x.divisors ++ y.divisors
  | quotient x y => x.divisors ++ y.divisors ++ [y]

variable (α : Type) [Arithmetic α]

theorem value_share (count total : Nat) :
    (Arithmetic.share Formula count total).value α = Arithmetic.share α count total := by
  unfold Arithmetic.share
  split <;> rfl

theorem value_foldl (xs : List Formula) (start : Formula) :
    (xs.foldl (· + ·) start).value α = (xs.map (value α)).foldl (· + ·) (start.value α) := by
  induction xs generalizing start with
  | nil => rfl
  | cons x xs ih => exact ih (start + x)

theorem value_sum (xs : List Formula) :
    (Arithmetic.sum xs).value α = Arithmetic.sum (xs.map (value α)) :=
  value_foldl α xs _

theorem divisors_foldl (xs : List Formula) (start : Formula) :
    (xs.foldl (· + ·) start).divisors = start.divisors ++ xs.flatMap divisors := by
  induction xs generalizing start with
  | nil => exact (List.append_nil _).symm
  | cons x xs ih =>
    rw [List.foldl_cons, ih, List.flatMap_cons, ← List.append_assoc]
    rfl

theorem divisors_sum (xs : List Formula) : (Arithmetic.sum xs).divisors = xs.flatMap divisors :=
  divisors_foldl xs _

theorem divisors_share {count total : Nat} (h : total ≠ 0) :
    (Arithmetic.share Formula count total).divisors = [whole total] := by
  rw [Arithmetic.share, if_neg h]
  rfl

end Formula

/-- A verdict with its number replaced. -/
def Fit.map {α β : Type} (f : α → β) : Fit α → Fit β
  | impossible => impossible
  | statistic value => statistic (f value)

/-! ## The three ways of a statistic -/

/-- An outcome was observed that the table gives no count. -/
def Impossible (observed : Histogram) (t : DistributionTable) : Prop :=
  ∃ key, 0 < observed.getD key 0 ∧ t.count key = 0

section Cases

variable {α : Type} [Arithmetic α] {observed : Histogram} {t : DistributionTable}

theorem Histogram.getD_pos_iff {key : Bitstring} :
    0 < observed.getD key 0 ↔ ∃ n, (key, n) ∈ observed.entries ∧ 0 < n := by
  simp only [← OrderedMap.get?_eq_some_iff, OrderedMap.getD]
  cases observed.get? key with
  | none => simp
  | some n => simp

theorem any_impossible_iff :
    (observed.entries.any fun e => 0 < e.2 && t.count e.1 == 0) = true ↔
      Impossible observed t := by
  simp only [List.any_eq_true, Bool.and_eq_true, decide_eq_true_eq, beq_iff_eq, Impossible,
    Histogram.getD_pos_iff]
  constructor
  · rintro ⟨⟨key, n⟩, hmem, hpos, hcount⟩
    exact ⟨key, ⟨n, hmem, hpos⟩, hcount⟩
  · rintro ⟨key, ⟨n, hmem, hpos⟩, hcount⟩
    exact ⟨(key, n), hmem, hpos, hcount⟩

theorem Histogram.getD_le_total (h : Histogram) (key : Bitstring) : h.getD key 0 ≤ h.total := by
  rw [OrderedMap.getD]
  cases hget : h.get? key with
  | none => exact Nat.zero_le _
  | some n =>
    exact List.le_sum_of_mem (List.mem_map_of_mem (OrderedMap.get?_eq_some_iff.mp hget))

/-- What was observed counts towards the total. -/
theorem Impossible.total_pos (h : Impossible observed t) : 0 < observed.total := by
  obtain ⟨key, hpos, -⟩ := h
  exact Nat.lt_of_lt_of_le hpos (observed.getD_le_total key)

theorem chiSquared_of_total_eq_zero (h : observed.total = 0) :
    chiSquared α observed t = .statistic (Arithmetic.ofNat 0) := by
  unfold chiSquared
  exact if_pos h

theorem chiSquared_of_impossible (h : Impossible observed t) :
    chiSquared α observed t = .impossible := by
  unfold chiSquared
  simp only [if_neg (Nat.ne_of_gt h.total_pos), any_impossible_iff.mpr h, if_true]

theorem chiSquared_of_possible (htotal : observed.total ≠ 0) (h : ¬ Impossible observed t) :
    chiSquared α observed t = .statistic (Arithmetic.sum (t.positiveEntries.map fun e =>
      fitTerm α t observed.total e.2 (observed.getD e.1 0))) := by
  have hany := mt any_impossible_iff.mp h
  unfold chiSquared
  simp only [if_neg htotal, if_neg hany]
  rfl

theorem chiSquared_eq_impossible_iff :
    chiSquared α observed t = .impossible ↔ Impossible observed t := by
  constructor
  · intro hfit
    by_contra h
    by_cases htotal : observed.total = 0
    · rw [chiSquared_of_total_eq_zero htotal] at hfit
      cases hfit
    · rw [chiSquared_of_possible htotal h] at hfit
      cases hfit
  · exact chiSquared_of_impossible

end Cases

/-! ## What is divided by -/

/-- How often an outcome is expected among `shots`. -/
def DistributionTable.expected (α : Type) [Arithmetic α] (t : DistributionTable) (shots : Nat)
    (key : Bitstring) : α :=
  Arithmetic.ofNat shots * Arithmetic.share α (t.count key) t.total

section Divisors

variable {observed : Histogram} {t : DistributionTable} {d f : Formula}

theorem DistributionTable.value_expected (α : Type) [Arithmetic α] (t : DistributionTable)
    (shots : Nat) (key : Bitstring) :
    (t.expected Formula shots key).value α = t.expected α shots key :=
  congrArg (Arithmetic.ofNat shots * ·) (Formula.value_share α (t.count key) t.total)

theorem value_fitTerm (α : Type) [Arithmetic α] (t : DistributionTable) (shots count seen : Nat) :
    (fitTerm Formula t shots count seen).value α = fitTerm α t shots count seen := by
  have hshare := Formula.value_share α count t.total
  unfold fitTerm
  simp only [← hshare]
  rfl

/-- In any arithmetic the statistic is what the formula gives when it is carried out. -/
theorem chiSquared_eq_map_value (α : Type) [Arithmetic α] (observed : Histogram)
    (t : DistributionTable) :
    chiSquared α observed t = (chiSquared Formula observed t).map (Formula.value α) := by
  by_cases h : Impossible observed t
  · rw [chiSquared_of_impossible h, chiSquared_of_impossible h]
    rfl
  · by_cases htotal : observed.total = 0
    · rw [chiSquared_of_total_eq_zero htotal, chiSquared_of_total_eq_zero htotal]
      rfl
    · rw [chiSquared_of_possible htotal h, chiSquared_of_possible htotal h, Fit.map,
        Formula.value_sum, List.map_map]
      simp only [Function.comp_def, value_fitTerm]

/-- A term divides by the number expected, which itself divides by the total of the table. -/
theorem of_mem_divisors_fitTerm {shots seen : Nat} {key : Bitstring}
    (h : d ∈ (fitTerm Formula t shots (t.count key) seen).divisors) :
    d = .whole t.total ∨ d = t.expected Formula shots key := by
  have hexpected : (t.expected Formula shots key).divisors = [.whole t.total] :=
    Formula.divisors_share (Nat.ne_of_gt t.total_pos)
  have hdivisors : (fitTerm Formula t shots (t.count key) seen).divisors =
      (t.expected Formula shots key).divisors ++ (t.expected Formula shots key).divisors ++
        (t.expected Formula shots key).divisors ++ [t.expected Formula shots key] := rfl
  rw [hdivisors, hexpected] at h
  simpa using h

/-- Wherever a statistic divides, the integers that the divisor is computed from are positive. -/
theorem of_mem_divisors_chiSquared (hf : chiSquared Formula observed t = .statistic f)
    (hd : d ∈ f.divisors) :
    d = .whole t.total ∨
      ∃ key, d = t.expected Formula observed.total key ∧ 0 < observed.total ∧ 0 < t.count key := by
  have hpossible : ¬ Impossible observed t := by
    intro h
    rw [chiSquared_of_impossible h] at hf
    cases hf
  by_cases htotal : observed.total = 0
  · rw [chiSquared_of_total_eq_zero htotal] at hf
    obtain rfl := Fit.statistic.inj hf
    exact absurd hd List.not_mem_nil
  · rw [chiSquared_of_possible htotal hpossible] at hf
    obtain rfl := Fit.statistic.inj hf
    rw [Formula.divisors_sum, List.mem_flatMap] at hd
    obtain ⟨term, hterm, hd⟩ := hd
    obtain ⟨⟨key, n⟩, hentry, rfl⟩ := List.mem_map.mp hterm
    obtain ⟨rfl, hpos⟩ := DistributionTable.mem_positiveEntries.mp hentry
    exact (of_mem_divisors_fitTerm hd).imp_right fun h => ⟨key, h, Nat.pos_of_ne_zero htotal, hpos⟩

theorem DistributionTable.expected_rat_pos {shots : Nat} {key : Bitstring} (hshots : 0 < shots)
    (hcount : 0 < t.count key) : 0 < t.expected Rat shots key := by
  have htotal : (0 : Rat) < t.total := Nat.cast_pos.mpr t.total_pos
  have hne : t.total ≠ 0 := Nat.ne_of_gt t.total_pos
  show (0 : Rat) < shots * Arithmetic.share Rat (t.count key) t.total
  rw [Arithmetic.share, if_neg hne]
  exact mul_pos (Nat.cast_pos.mpr hshots) (div_pos (Nat.cast_pos.mpr hcount) htotal)

/-- Without rounding nothing is divided by zero. -/
theorem value_rat_pos_of_mem_divisors (hf : chiSquared Formula observed t = .statistic f)
    (hd : d ∈ f.divisors) : 0 < d.value Rat := by
  rcases of_mem_divisors_chiSquared hf hd with rfl | ⟨key, rfl, hshots, hcount⟩
  · exact Nat.cast_pos.mpr t.total_pos
  · rw [t.value_expected Rat]
    exact DistributionTable.expected_rat_pos hshots hcount

end Divisors

/-! ## What a table draws itself -/

namespace DistributionTable

variable (α : Type) [Arithmetic α]

theorem count_pos_of_histogram {t : DistributionTable} {shots : Nat} {s : WordStream}
    {key : Bitstring} (h : 0 < (t.histogram α shots s).1.getD key 0) : 0 < t.count key := by
  obtain ⟨n, hmem, -⟩ := Histogram.getD_pos_iff.mp h
  exact (mem_histogram α hmem).2

theorem total_histogram (t : DistributionTable) (shots : Nat) (s : WordStream) :
    (t.histogram α shots s).1.total = shots := by
  rw [histogram_eq α, Histogram.total_ofKeys, List.length_map, length_samples]

theorem not_impossible_histogram (t : DistributionTable) (shots : Nat) (s : WordStream) :
    ¬ Impossible (t.histogram α shots s).1 t := by
  rintro ⟨key, hdrawn, hcount⟩
  exact Nat.ne_of_gt (count_pos_of_histogram α hdrawn) hcount

/-- **A table's own draws are possible under it,** whatever the rounding of the draws and of the
statistic. Every outcome that came up is on record with a positive count, the numbers of occurrences
add up in a word to the number of draws, and the statistic does not take them for impossible.

Whatever was observed, the statistic is computed by one formula in every arithmetic, and the formula
divides by the total of the table and by the numbers of occurrences expected, with a positive number
observed, a positive count and a positive total in each. Without rounding none of these is zero. -/
theorem own_draws_are_possible (β : Type) [Arithmetic β] (t : DistributionTable) :
    (∀ shots s,
      (∀ key, 0 < (t.histogram α shots s).1.getD key 0 → 0 < t.count key) ∧
      (t.histogram α shots s).1.total = shots ∧
      (shots ≤ maxWord → sumWord? (t.histogram α shots s).1.values = some shots) ∧
      chiSquared β (t.histogram α shots s).1 t ≠ .impossible) ∧
    ∀ (observed : Histogram) observedTotal, sumWord? observed.values = some observedTotal →
      chiSquared β observed t = (chiSquared Formula observed t).map (Formula.value β) ∧
      ∀ f, chiSquared Formula observed t = .statistic f → ∀ d ∈ f.divisors,
        (d = .whole t.total ∨ ∃ key, d = t.expected Formula observedTotal key ∧
          0 < observedTotal ∧ 0 < t.count key) ∧
        0 < t.total ∧ 0 < d.value Rat := by
  refine ⟨fun shots s => ⟨fun key => count_pos_of_histogram α, total_histogram α t shots s,
    fun hshots => ?_, ?_⟩, fun observed observedTotal hsum => ?_⟩
  · exact sumWord?_eq_some_iff.mpr ⟨total_histogram α t shots s, hshots⟩
  · exact mt chiSquared_eq_impossible_iff.mp (not_impossible_histogram α t shots s)
  · obtain ⟨rfl, -⟩ := sumWord?_eq_some_iff.mp hsum
    refine ⟨chiSquared_eq_map_value β observed t, fun f hf d hd => ?_⟩
    exact ⟨of_mem_divisors_chiSquared hf hd, t.total_pos, value_rat_pos_of_mem_divisors hf hd⟩

/-- Three times the one outcome that the settled register counts. -/
def threeReads : Histogram :=
  OrderedMap.ofList (settledRegister.positiveEntries.map fun e => (e.1, 3))

/-- Three draws of the settled register are possible under it. The statistic of `101` read three
times divides by ten, the total, and by the three times that are expected. -/
theorem settledRegister_own_draws :
    (3 ≤ maxWord ∧
      sumWord? (settledRegister.histogram Rat 3 (.splitMix 7)).1.values = some 3 ∧
      chiSquared Rat (settledRegister.histogram Rat 3 (.splitMix 7)).1 settledRegister ≠
        .impossible) ∧
    sumWord? threeReads.values = some 3 ∧
    ∃ f, chiSquared Formula threeReads settledRegister = .statistic f ∧
      Formula.whole 10 ∈ f.divisors ∧
      settledRegister.expected Formula 3 ⟨[true, false, true], by decide⟩ ∈ f.divisors ∧
      0 < (settledRegister.expected Formula 3 ⟨[true, false, true], by decide⟩).value Rat := by
  have hsum : sumWord? threeReads.values = some 3 := by decide
  have hf : chiSquared Formula threeReads settledRegister =
      .statistic (Arithmetic.sum [fitTerm Formula settledRegister 3 10 3]) := by decide +kernel
  have htotal : Formula.whole 10 ∈
      (Arithmetic.sum [fitTerm Formula settledRegister 3 10 3]).divisors := by decide +kernel
  have hexpected : settledRegister.expected Formula 3 ⟨[true, false, true], by decide⟩ ∈
      (Arithmetic.sum [fitTerm Formula settledRegister 3 10 3]).divisors := by decide +kernel
  obtain ⟨hdrawn, hdivides⟩ := own_draws_are_possible Rat Rat settledRegister
  obtain ⟨-, -, hword, hpossible⟩ := hdrawn 3 (.splitMix 7)
  have hpos := ((hdivides threeReads 3 hsum).2 _ hf _ hexpected).2.2
  exact ⟨⟨by decide, hword (by decide), hpossible⟩, hsum, _, hf, htotal, hexpected, hpos⟩

end DistributionTable

end Readout
