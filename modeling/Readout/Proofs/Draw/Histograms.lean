import Readout.Proofs.Draw.Samples
import Readout.Proofs.Table.Insertion

/-!
# Histograms of samples

A histogram is filled one occurrence at a time. What it holds in the end is what the list of
outcomes counts (`Histogram.get?_ofKeys`), so that histograms of two lists add up to that of the
lists one after the other (`Histogram.ofKeys_append`). Drawing into a histogram counts the samples
that the same words give when they are drawn one after the other (`histogram_eq`).
-/

namespace Readout

namespace Histogram

variable {h g : Histogram} {key : Bitstring} {keys : List Bitstring}

/-- The histogram of a list of outcomes. -/
def ofKeys (keys : List Bitstring) : Histogram := keys.foldl bump ∅

/-- Two histograms, added key by key. -/
def add (h g : Histogram) : Histogram :=
  g.entries.foldl (fun m e => m.insert e.1 (m.getD e.1 0 + e.2)) h

/-! ## Counting a list -/

theorem get?_bump (h : Histogram) (counted key : Bitstring) :
    (h.bump counted).get? key =
      if key = counted then some (h.getD key 0 + 1) else h.get? key := by
  unfold bump
  rw [OrderedMap.get?_insert]
  by_cases hkey : key = counted
  · rw [if_pos hkey, if_pos hkey, hkey]
  · rw [if_neg hkey, if_neg hkey]

theorem total_bump (h : Histogram) (counted : Bitstring) :
    (h.bump counted).total = h.total + 1 := by
  have hsum := OrderedMap.sum_values_insert h counted (h.getD counted 0 + 1)
  unfold total bump
  omega

theorem get?_foldl_bump (h : Histogram) (keys : List Bitstring) (key : Bitstring) :
    (keys.foldl bump h).get? key =
      if key ∈ keys then some (h.getD key 0 + keys.count key) else h.get? key := by
  induction keys generalizing h with
  | nil => simp
  | cons counted rest ih =>
    rw [List.foldl_cons, ih]
    have hgetD : (h.bump counted).getD key 0 =
        h.getD key 0 + if key = counted then 1 else 0 := by
      rw [OrderedMap.getD, get?_bump]
      by_cases hkey : key = counted
      · rw [if_pos hkey, if_pos hkey, Option.getD_some]
      · rw [if_neg hkey, if_neg hkey, Nat.add_zero]
        rfl
    by_cases hkey : key = counted
    · subst hkey
      rw [hgetD, get?_bump, List.count_cons_self, if_pos rfl, if_pos rfl,
        if_pos List.mem_cons_self]
      by_cases hmem : key ∈ rest
      · rw [if_pos hmem]
        congr 1
        omega
      · rw [if_neg hmem, List.count_eq_zero.mpr hmem]
    · rw [hgetD, get?_bump, List.count_cons_of_ne (Ne.symm hkey), if_neg hkey, if_neg hkey,
        Nat.add_zero]
      simp [hkey]

theorem total_foldl_bump (h : Histogram) (keys : List Bitstring) :
    (keys.foldl bump h).total = h.total + keys.length := by
  induction keys generalizing h with
  | nil => rfl
  | cons counted rest ih =>
    rw [List.foldl_cons, ih, total_bump, List.length_cons]
    omega

/-- A histogram of a list has its members for keys, each with the number of times it occurs. -/
theorem get?_ofKeys (keys : List Bitstring) (key : Bitstring) :
    (ofKeys keys).get? key = if key ∈ keys then some (keys.count key) else none := by
  rw [ofKeys, get?_foldl_bump, OrderedMap.getD, OrderedMap.get?_empty, Option.getD_none,
    Nat.zero_add]

theorem mem_entries_ofKeys {n : Nat} :
    (key, n) ∈ (ofKeys keys).entries ↔ key ∈ keys ∧ keys.count key = n := by
  rw [← OrderedMap.get?_eq_some_iff, get?_ofKeys]
  by_cases hmem : key ∈ keys
  · rw [if_pos hmem]
    simp [hmem]
  · simp [hmem]

theorem total_ofKeys (keys : List Bitstring) : (ofKeys keys).total = keys.length :=
  (total_foldl_bump ∅ keys).trans (Nat.zero_add keys.length)

/-! ## Sums of histograms -/

/-- What stands at a key of a sum: both counts added, or the one that there is. -/
theorem get?_add (h g : Histogram) (key : Bitstring) :
    (h.add g).get? key = Option.merge (· + ·) (h.get? key) (g.get? key) := by
  obtain ⟨l, hl⟩ := g
  show (l.foldl _ h).get? key = Option.merge (· + ·) (h.get? key) (OrderedMap.lookup key l)
  induction l generalizing h with
  | nil =>
    rw [List.foldl_nil]
    cases h.get? key <;> rfl
  | cons e rest ih =>
    obtain ⟨he, hrest⟩ := List.pairwise_cons.mp hl
    rw [List.foldl_cons, ih _ hrest, OrderedMap.get?_insert, OrderedMap.lookup]
    by_cases hkey : key = e.1
    · -- the keys behind `e` are greater, so that none of them is counted once more
      have hnone : OrderedMap.lookup key rest = none := by
        rw [hkey]
        exact OrderedMap.lookup_eq_none_of_lt he
      have heq : compare key e.1 = .eq := Std.LawfulEqCmp.compare_eq_iff_eq.mpr hkey
      rw [if_pos hkey, if_pos heq, hnone, ← hkey, OrderedMap.getD]
      cases h.get? key with
      | none => exact congrArg some (Nat.zero_add e.2)
      | some n => rfl
    · have hne : ¬ compare key e.1 = .eq := fun heq =>
        hkey (Std.LawfulEqCmp.compare_eq_iff_eq.mp heq)
      rw [if_neg hkey, if_neg hne]

theorem getD_add (h g : Histogram) (key : Bitstring) :
    (h.add g).getD key 0 = h.getD key 0 + g.getD key 0 := by
  unfold OrderedMap.getD
  rw [get?_add]
  cases h.get? key with
  | none =>
    cases g.get? key with
    | none => rfl
    | some n => exact (Nat.zero_add n).symm
  | some n => cases g.get? key <;> rfl

theorem ofKeys_append (keys more : List Bitstring) :
    ofKeys (keys ++ more) = (ofKeys keys).add (ofKeys more) := by
  refine OrderedMap.ext_get? fun key => ?_
  rw [get?_add, get?_ofKeys, get?_ofKeys, get?_ofKeys, List.count_append]
  by_cases hkeys : key ∈ keys <;> by_cases hmore : key ∈ more <;>
    simp [hkeys, hmore, List.count_eq_zero]

end Histogram

namespace DistributionTable

variable (α : Type) [Arithmetic α] {t : DistributionTable} {s : WordStream} {shots more : Nat}

theorem samples_add : t.samples α (shots + more) s =
    ((t.samples α shots s).1 ++ (t.samples α more (t.samples α shots s).2).1,
      (t.samples α more (t.samples α shots s).2).2) := by
  induction shots generalizing s with
  | zero => rw [Nat.zero_add]; rfl
  | succ shots ih =>
    rw [Nat.succ_add, samples_succ, ih]
    rfl

theorem histogramOnto_eq (h : Histogram) :
    t.histogramOnto α shots h s =
      (((t.samples α shots s).1.map (·.key)).foldl Histogram.bump h, (t.samples α shots s).2) := by
  induction shots generalizing h s with
  | zero => rfl
  | succ shots ih =>
    show t.histogramOnto α shots (h.bump (t.drawEntry α s).1.1) (t.drawEntry α s).2 = _
    rw [ih]
    rfl

/-- Drawing into a histogram counts the keys of as many samples. -/
theorem histogram_eq : t.histogram α shots s =
    (Histogram.ofKeys ((t.samples α shots s).1.map (·.key)), (t.samples α shots s).2) :=
  histogramOnto_eq α ∅

theorem mem_histogram {e : Bitstring × Nat} (h : e ∈ (t.histogram α shots s).1.entries) :
    0 < e.2 ∧ 0 < t.count e.1 := by
  rw [histogram_eq] at h
  obtain ⟨hmem, hcount⟩ := Histogram.mem_entries_ofKeys.mp h
  obtain ⟨x, hx, hkey⟩ := List.mem_map.mp hmem
  refine ⟨?_, ?_⟩
  · rw [← hcount]
    exact List.count_pos_iff.mpr hmem
  · rw [← hkey]
    exact count_pos_of_mem_samples α hx

theorem histogram_add : t.histogram α (shots + more) s =
    ((t.histogram α shots s).1.add (t.histogram α more (t.histogram α shots s).2).1,
      (t.histogram α more (t.histogram α shots s).2).2) := by
  rw [histogram_eq, histogram_eq, histogram_eq, samples_add, List.map_append,
    Histogram.ofKeys_append]

/-- **A histogram is what single samples count.** Drawing into a histogram gives the keys of as many
samples, each as often as it was drawn, and leaves the words that they leave, one word to a draw.
The counts sum to the number of draws; none is zero, and every key was recorded. Going on from where
a first histogram left the words, a second one adds to it, key by key, the histogram of all the
draws. -/
theorem histogram_counts_samples (t : DistributionTable) (shots : Nat) (s : WordStream) :
    (t.histogram α shots s =
      (Histogram.ofKeys ((t.samples α shots s).1.map (·.key)), (t.samples α shots s).2) ∧
      ∀ key, (t.histogram α shots s).1.getD key 0 =
        ((t.samples α shots s).1.map (·.key)).count key) ∧
    ((t.samples α shots s).1.length = shots ∧ (t.histogram α shots s).2 = s.drop shots) ∧
    (t.histogram α shots s).1.total = shots ∧
    (∀ e ∈ (t.histogram α shots s).1.entries, 0 < e.2 ∧ 0 < t.count e.1) ∧
    ∀ more, t.histogram α (shots + more) s =
        ((t.histogram α shots s).1.add (t.histogram α more (t.histogram α shots s).2).1,
          (t.histogram α more (t.histogram α shots s).2).2) ∧
      ∀ key, (t.histogram α (shots + more) s).1.getD key 0 =
        (t.histogram α shots s).1.getD key 0 +
          (t.histogram α more (t.histogram α shots s).2).1.getD key 0 := by
  have hkeys : t.histogram α shots s = (Histogram.ofKeys _, _) := histogram_eq α
  refine ⟨⟨hkeys, fun key => ?_⟩, ⟨length_samples α, ?_⟩, ?_, fun e => mem_histogram α,
    fun more => ⟨histogram_add α, fun key => ?_⟩⟩
  · rw [hkeys, OrderedMap.getD, Histogram.get?_ofKeys]
    split
    · rfl
    · rename_i hmem
      exact (List.count_eq_zero.mpr hmem).symm
  · rw [hkeys]
    exact snd_samples α
  · rw [hkeys, Histogram.total_ofKeys, List.length_map]
    exact length_samples α
  · rw [histogram_add]
    exact Histogram.getD_add _ _ key

/-- A register of three bits that was always read as `101`, with `010` on record as never read. -/
def settledRegister : DistributionTable :=
  ⟨none, 3,
    ⟨[(⟨[false, true, false], by decide⟩, 0), (⟨[true, false, true], by decide⟩, 10)], by decide⟩,
    by decide, by decide, by decide⟩

/-- Three draws of the settled register are three times `101`, first once and then twice. -/
theorem settledRegister_histogram :
    ((⟨[true, false, true], by decide⟩, 3) ∈
        (settledRegister.histogram Rat 3 (.splitMix 7)).1.entries ∧
      0 < settledRegister.count ⟨[true, false, true], by decide⟩) ∧
    (settledRegister.histogram Rat 3 (.splitMix 7)).1.total = 3 ∧
    settledRegister.histogram Rat 3 (.splitMix 7) =
      ((settledRegister.histogram Rat 1 (.splitMix 7)).1.add
          (settledRegister.histogram Rat 2 (settledRegister.histogram Rat 1 (.splitMix 7)).2).1,
        (settledRegister.histogram Rat 2 (settledRegister.histogram Rat 1 (.splitMix 7)).2).2) := by
  have hmem : (⟨[true, false, true], by decide⟩, 3) ∈
      (settledRegister.histogram Rat 3 (.splitMix 7)).1.entries := by decide +kernel
  obtain ⟨-, -, htotal, hentries, -⟩ :=
    histogram_counts_samples Rat settledRegister 3 (.splitMix 7)
  obtain ⟨-, -, -, -, hadd⟩ := histogram_counts_samples Rat settledRegister 1 (.splitMix 7)
  exact ⟨⟨hmem, (hentries _ hmem).2⟩, htotal, (hadd 2).1⟩

end DistributionTable

end Readout
