import Readout.Fit
import Readout.Proofs.Draw.Histograms
import Readout.Proofs.Table.Lookup

/-!
# Counts of zero

An entry with a count of zero moves the places of the entries behind it, so that the walks on a
table with it and without it find different indices. What they find there is the same: a walk told
by its entries instead of its indices (`walkEntries`) does not see the ones with a count of zero
(`walkEntries_filter`). Samples, histograms and the fit therefore look at the positive entries of a
table only, and tables that give every key the same count cannot be told apart by them
(`sample_congr`, `histogram_congr`, `chiSquared_congr`).
-/

namespace Readout

section Walk

variable {α κ : Type} [Arithmetic α]

/-- The walk of `walk` on the counts of entries, which ends at an entry. -/
def walkEntries (remaining : α) (fallback : Option (κ × Nat)) :
    List (κ × Nat) → Option (κ × Nat)
  | [] => fallback
  | e :: rest =>
    if e.2 = 0 then walkEntries remaining fallback rest
    else
      let left := remaining - Arithmetic.ofNat e.2
      if Arithmetic.isNonpos left then some e else walkEntries left (some e) rest

/-- The entry at the index where a walk ends is the one where the walk by entries does. -/
theorem walk_bind_getElem? (entries : List (κ × Nat)) {rest : List (κ × Nat)} {index : Nat}
    (remaining : α) (fallback : Option Nat) (hdrop : entries.drop index = rest) :
    (walk remaining index fallback (rest.map (·.2))).bind (entries[·]?) =
      walkEntries remaining (fallback.bind (entries[·]?)) rest := by
  induction rest generalizing index remaining fallback with
  | nil => rfl
  | cons e rest ih =>
    have hentry : entries[index]? = some e := by
      rw [← List.head?_drop, hdrop]
      rfl
    have hrest : entries.drop (index + 1) = rest := by
      rw [← List.tail_drop, hdrop]
      rfl
    rw [List.map_cons, walk, walkEntries]
    by_cases hzero : e.2 = 0
    · rw [if_pos hzero, if_pos hzero]
      exact ih remaining fallback hrest
    · rw [if_neg hzero, if_neg hzero]
      show Option.bind (if _ then _ else _) _ = if _ then _ else _
      by_cases hleft : Arithmetic.isNonpos (remaining - Arithmetic.ofNat e.2) = true
      · rw [if_pos hleft, if_pos hleft]
        exact hentry
      · rw [if_neg hleft, if_neg hleft, ih _ _ hrest]
        -- from here on the fallback is this entry
        show walkEntries _ entries[index]? rest = _
        rw [hentry]

theorem filter_pos_cons (e : κ × Nat) (rest : List (κ × Nat)) :
    ((e :: rest).filter fun e => 0 < e.2) =
      if e.2 = 0 then rest.filter fun e => 0 < e.2
      else e :: rest.filter fun e => 0 < e.2 := by
  rw [List.filter_cons]
  by_cases hzero : e.2 = 0
  · simp [hzero]
  · simp [hzero, Nat.pos_of_ne_zero]

/-- Entries with a count of zero are passed over, wherever they stand. -/
theorem walkEntries_filter (remaining : α) (fallback : Option (κ × Nat))
    (entries : List (κ × Nat)) :
    walkEntries remaining fallback (entries.filter fun e => 0 < e.2) =
      walkEntries remaining fallback entries := by
  induction entries generalizing remaining fallback with
  | nil => rfl
  | cons e rest ih =>
    rw [filter_pos_cons, walkEntries]
    by_cases hzero : e.2 = 0
    · rw [if_pos hzero, if_pos hzero, ih]
    · rw [if_neg hzero, if_neg hzero, walkEntries, if_neg hzero]
      simp only [ih]

theorem sum_counts_filter (entries : List (κ × Nat)) :
    ((entries.filter fun e => 0 < e.2).map (·.2)).sum = (entries.map (·.2)).sum := by
  induction entries with
  | nil => rfl
  | cons e rest ih =>
    rw [filter_pos_cons, List.map_cons, List.sum_cons]
    by_cases hzero : e.2 = 0
    · rw [if_pos hzero, ih, hzero, Nat.zero_add]
    · rw [if_neg hzero, List.map_cons, List.sum_cons, ih]

end Walk

namespace DistributionTable

variable {t t' : DistributionTable}

/-! ## Positive entries -/

/-- The entries that were recorded at least once. -/
def positiveEntries (t : DistributionTable) : List (Bitstring × Nat) :=
  t.entries.filter fun e => 0 < e.2

theorem mem_positiveEntries {key : Bitstring} {n : Nat} :
    (key, n) ∈ t.positiveEntries ↔ t.count key = n ∧ 0 < n := by
  rw [positiveEntries, List.mem_filter, decide_eq_true_eq]
  refine and_congr_left fun hpos => ⟨count_eq_of_mem, fun hcount => ?_⟩
  refine OrderedMap.get?_eq_some_iff.mp ?_
  rw [count_eq_getD, OrderedMap.getD] at hcount
  cases hget : t.counts.get? key with
  | none =>
    rw [hget, Option.getD_none] at hcount
    omega
  | some m =>
    rw [hget, Option.getD_some] at hcount
    rw [hcount]

theorem sum_positiveEntries (t : DistributionTable) :
    (t.positiveEntries.map (·.2)).sum = t.total :=
  sum_counts_filter t.entries

/-- The counts of all keys determine the positive entries and their order. -/
theorem positiveEntries_congr (h : ∀ key, t'.count key = t.count key) :
    t'.positiveEntries = t.positiveEntries := by
  let positive (t : DistributionTable) : OrderedMap Bitstring Nat :=
    ⟨t.positiveEntries, t.counts.ascending.filter _⟩
  have hsame : positive t' = positive t := by
    refine OrderedMap.ext_get? fun key => Option.ext fun n => ?_
    rw [OrderedMap.get?_eq_some_iff, OrderedMap.get?_eq_some_iff]
    exact mem_positiveEntries.trans (h key ▸ mem_positiveEntries.symm)
  exact congrArg OrderedMap.entries hsame

theorem total_congr (h : ∀ key, t'.count key = t.count key) : t'.total = t.total := by
  rw [← sum_positiveEntries, ← sum_positiveEntries, positiveEntries_congr h]

/-! ## Draws and the fit -/

section Draw

variable (α : Type) [Arithmetic α]

/-- A draw ends where the walk on the positive entries does. -/
theorem walkEntries_positiveEntries (t : DistributionTable) (s : WordStream) :
    walkEntries (unitOfWord α s.next.1 * Arithmetic.ofNat t.total) none t.positiveEntries =
      some (t.drawEntry α s).1 := by
  obtain ⟨i, key, hi, hentry, -, hdraw⟩ := t.exists_drawn_entry α s
  have hwalk := walk_bind_getElem? t.entries
    (unitOfWord α s.next.1 * Arithmetic.ofNat t.total) none List.drop_zero
  have hweights : t.entries.map (·.2) = t.weights := rfl
  have hne : t.total ≠ 0 := Nat.ne_of_gt t.total_pos
  rw [fst_drawIndex α t.weights s hne] at hi
  rw [hweights, ← pickIndex, hi] at hwalk
  rw [positiveEntries, walkEntries_filter, hdraw, ← hentry]
  exact hwalk.symm

theorem sample_congr (h : ∀ key, t'.count key = t.count key) (s : WordStream) :
    t'.sample α s = t.sample α s := by
  have htotal := total_congr h
  have hdraw : (t'.drawEntry α s).1 = (t.drawEntry α s).1 := by
    refine Option.some.inj ?_
    rw [← walkEntries_positiveEntries α, ← walkEntries_positiveEntries α,
      positiveEntries_congr h, htotal]
  refine Prod.ext ?_ ?_
  · rw [t'.sample_eq α s, t.sample_eq α s, hdraw, htotal]
  · rw [snd_sample, snd_sample]

theorem samples_congr (h : ∀ key, t'.count key = t.count key) (shots : Nat) (s : WordStream) :
    t'.samples α shots s = t.samples α shots s := by
  induction shots generalizing s with
  | zero => rfl
  | succ shots ih => rw [samples_succ, samples_succ, sample_congr α h, ih]

theorem histogram_congr (h : ∀ key, t'.count key = t.count key) (shots : Nat) (s : WordStream) :
    t'.histogram α shots s = t.histogram α shots s := by
  rw [histogram_eq, histogram_eq, samples_congr α h]

theorem chiSquared_congr (h : ∀ key, t'.count key = t.count key) (observed : Histogram) :
    chiSquared α observed t' = chiSquared α observed t := by
  have hpositive : (t'.entries.filter fun e => 0 < e.2) = t.entries.filter fun e => 0 < e.2 :=
    positiveEntries_congr h
  have hterm : ∀ shots count seen,
      fitTerm α t' shots count seen = fitTerm α t shots count seen := by
    intro shots count seen
    unfold fitTerm
    rw [total_congr h]
  unfold chiSquared
  simp only [h, hpositive, hterm]

end Draw

/-! ## Lists with further keys -/

variable {pairs longer : List (String × Nat)} {extra : List String}

/-- Counts with further keys, each with a count of zero. -/
def withZeros (pairs : List (String × Nat)) (extra : List String) : List (String × Nat) :=
  pairs ++ extra.map fun key => (key, 0)

theorem map_fst_withZeros : (withZeros pairs extra).map (·.1) = pairs.map (·.1) ++ extra := by
  rw [withZeros, List.map_append, List.map_map]
  exact congrArg (_ ++ ·) (List.map_id extra)

theorem sum_withZeros : ((withZeros pairs extra).map (·.2)).sum = (pairs.map (·.2)).sum := by
  rw [withZeros, List.map_append, List.sum_append, List.map_map]
  have hzeros : (extra.map ((·.2) ∘ fun key => (key, 0))).sum = 0 := List.sum_map_zero
  rw [hzeros, Nat.add_zero]

theorem mem_withZeros {p : String × Nat} :
    p ∈ withZeros pairs extra ↔ p ∈ pairs ∨ p.1 ∈ extra ∧ p.2 = 0 := by
  obtain ⟨key, n⟩ := p
  rw [withZeros, List.mem_append, List.mem_map]
  refine or_congr_right ⟨?_, ?_⟩
  · rintro ⟨other, hmem, heq⟩
    obtain ⟨rfl, rfl⟩ := Prod.mk.inj heq
    exact ⟨hmem, rfl⟩
  · rintro ⟨hmem, hzero⟩
    exact ⟨key, hmem, Prod.ext rfl hzero.symm⟩

/-- Further keys of the same width leave a list acceptable. -/
theorem acceptable_withZeros (h : Acceptable pairs) {width : Nat}
    (hwidth : ∀ p ∈ pairs, p.1.length = width)
    (hextra : ∀ key ∈ extra, IsBitText key ∧ key.length = width) (hnodup : extra.Nodup)
    (hfresh : ∀ key ∈ extra, key ∉ pairs.map (·.1)) : Acceptable (withZeros pairs extra) := by
  have hlength : ∀ p ∈ withZeros pairs extra, p.1.length = width := by
    intro p hp
    rcases mem_withZeros.mp hp with hp | ⟨hp, -⟩
    · exact hwidth p hp
    · exact (hextra p.1 hp).2
  refine ⟨?_, ?_, ?_, ?_, ?_, ?_⟩
  · intro hnil
    exact h.ne_nil (List.append_eq_nil_iff.mp hnil).1
  · intro p hp
    rcases mem_withZeros.mp hp with hp | ⟨hp, -⟩
    · exact h.isBitText p hp
    · exact (hextra p.1 hp).1
  · intro p hp q hq
    rw [hlength p hp, hlength q hq]
  · rw [map_fst_withZeros, List.nodup_append]
    refine ⟨h.nodup, hnodup, ?_⟩
    rintro key hkey _ hmem rfl
    exact hfresh key hmem hkey
  · rw [sum_withZeros]
    exact h.one_le
  · rw [sum_withZeros]
    exact h.sum_le

/-- A key that is added with a count of zero counts as one that was never recorded. -/
theorem count_of_perm_withZeros (h : (writtenPairs t.counts).Perm pairs)
    (h' : (writtenPairs t'.counts).Perm (withZeros pairs extra)) (key : Bitstring) :
    t'.count key = t.count key := by
  have hiff : ∀ n, t'.counts.get? key = some n ↔
      t.counts.get? key = some n ∨ key.text ∈ extra ∧ n = 0 := by
    intro n
    rw [get?_eq_some_iff_of_perm h, get?_eq_some_iff_of_perm h', mem_withZeros]
  rw [count_eq_getD, count_eq_getD, OrderedMap.getD, OrderedMap.getD]
  cases hget : t.counts.get? key with
  | some n => rw [(hiff n).mpr (.inl hget)]
  | none =>
    cases hget' : t'.counts.get? key with
    | none => rfl
    | some n =>
      rcases (hiff n).mp hget' with hn | ⟨-, rfl⟩
      · rw [hget] at hn
        cases hn
      · rfl

variable (α : Type) [Arithmetic α]

/-- **Keys with a count of zero change nothing,** whatever the rounding. Put further keys of the
table's width, none of them there yet, into its list of counts, each with a count of zero and
wherever it likes to stand. The list still makes a table; from the same words that table draws the
same samples, in key, count and total, and the same histograms, leaves the same words, and fits
whatever was observed equally well. -/
theorem withZeros_changes_nothing {label relabelled : Option String}
    (ht : ofCounts label pairs = .ok t)
    (hextra : ∀ key ∈ extra, IsBitText key ∧ key.length = t.width) (hnodup : extra.Nodup)
    (hfresh : ∀ key ∈ extra, key ∉ pairs.map (·.1))
    (hlonger : longer.Perm (withZeros pairs extra)) :
    ∃ t', ofCounts relabelled longer = .ok t' ∧
      (∀ s, t'.sample α s = t.sample α s) ∧
      (∀ shots s, t'.histogram α shots s = t.histogram α shots s) ∧
      ∀ observed, chiSquared α observed t' = chiSquared α observed t := by
  obtain ⟨-, hperm⟩ := ofCounts_eq_ok_iff.mp ht
  have hacceptable : Acceptable (withZeros pairs extra) :=
    acceptable_withZeros (acceptable_of_perm hperm) (fun p => length_eq_of_perm hperm) hextra
      hnodup hfresh
  obtain ⟨t', ht'⟩ : ∃ t', ofCounts relabelled (withZeros pairs extra) = .ok t' :=
    hacceptable.exists_ofCounts
  obtain ⟨hlabel, hperm'⟩ := ofCounts_eq_ok_iff.mp ht'
  have hcount := count_of_perm_withZeros hperm hperm'
  refine ⟨t', ofCounts_eq_ok_iff.mpr ⟨hlabel, hperm'.trans hlonger.symm⟩, ?_, ?_, ?_⟩
  · exact sample_congr α hcount
  · exact histogram_congr α hcount
  · exact chiSquared_congr α hcount

/-- Two bits that always agreed. -/
def equalBits : DistributionTable :=
  ⟨none, 2, ⟨[(⟨[false, false], by decide⟩, 1), (⟨[true, true], by decide⟩, 3)], by decide⟩,
    by decide, by decide, by decide⟩

/-- The bits that disagree stand between those that agree, and none of them is drawn. -/
theorem equalBits_withZeros :
    ofCounts none [("11", 3), ("00", 1)] = .ok equalBits ∧
    (∀ key ∈ ["10", "01"], IsBitText key ∧ key.length = equalBits.width) ∧
    ["10", "01"].Nodup ∧ (∀ key ∈ ["10", "01"], key ∉ [("11", 3), ("00", 1)].map (·.1)) ∧
    [("01", 0), ("11", 3), ("10", 0), ("00", 1)].Perm
      (withZeros [("11", 3), ("00", 1)] ["10", "01"]) ∧
    ∃ t', ofCounts none [("01", 0), ("11", 3), ("10", 0), ("00", 1)] = .ok t' ∧
      (∀ s, t'.sample Rat s = equalBits.sample Rat s) ∧
      (∀ shots s, t'.histogram Rat shots s = equalBits.histogram Rat shots s) ∧
      ∀ observed, chiSquared Rat observed t' = chiSquared Rat observed equalBits := by
  have ht : ofCounts none [("11", 3), ("00", 1)] = .ok equalBits := by rfl
  have hextra : ∀ key ∈ ["10", "01"], IsBitText key ∧ key.length = equalBits.width := by
    simp [IsBitText, equalBits, String.length]
  have hfresh : ∀ key ∈ ["10", "01"], key ∉ [("11", 3), ("00", 1)].map (·.1) := by decide
  have hlonger : [("01", 0), ("11", 3), ("10", 0), ("00", 1)].Perm
      (withZeros [("11", 3), ("00", 1)] ["10", "01"]) := by decide
  exact ⟨ht, hextra, by decide, hfresh, hlonger,
    withZeros_changes_nothing Rat ht hextra (by decide) hfresh hlonger⟩

end DistributionTable

end Readout
