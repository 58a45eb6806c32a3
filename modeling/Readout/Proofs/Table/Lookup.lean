import Readout.Proofs.Table.Acceptance

/-!
# Counts looked up

A table looks for a key by halving its entries, and they stand in another order than the list that
it was made of. What it finds is nevertheless what the list has beside the text of the key
(`count_eq_lookup`): the entries ascend strictly, whatever key they are compared with, and are the
pairs of the list. A key of another width, such as the beginning of a recorded key, is not found.
-/

namespace Readout.DistributionTable

variable {label : Option String} {pairs : List (String × Nat)} {t : DistributionTable}
  {key : Bitstring} {n : Nat}

theorem get?_eq_some_iff_of_perm (h : (writtenPairs t.counts).Perm pairs) :
    t.counts.get? key = some n ↔ (key.text, n) ∈ pairs := by
  rw [← h.mem_iff, mem_writtenPairs, OrderedMap.get?_eq_some_iff]
  constructor
  · intro hmem
    exact ⟨key, hmem, rfl⟩
  · rintro ⟨other, hmem, htext⟩
    rw [← Bitstring.text_injective htext]
    exact hmem

theorem count_of_mem (h : (writtenPairs t.counts).Perm pairs) (hmem : (key.text, n) ∈ pairs) :
    t.count key = n :=
  count_eq_of_mem (OrderedMap.get?_eq_some_iff.mp ((get?_eq_some_iff_of_perm h).mpr hmem))

theorem count_of_not_mem (h : (writtenPairs t.counts).Perm pairs)
    (hnot : key.text ∉ pairs.map (·.1)) : t.count key = 0 := by
  have hnone : t.counts.get? key = none := by
    rw [Option.eq_none_iff_forall_ne_some]
    intro n hsome
    exact hnot (List.mem_map_of_mem ((get?_eq_some_iff_of_perm h).mp hsome))
  rw [count_eq_getD, OrderedMap.getD, hnone]
  rfl

/-- A look-up in the table is one in the list. -/
theorem count_eq_lookup (h : (writtenPairs t.counts).Perm pairs) (key : Bitstring) :
    t.count key = (pairs.lookup key.text).getD 0 := by
  cases hlookup : pairs.lookup key.text with
  | none =>
    apply count_of_not_mem h
    intro hmem
    obtain ⟨p, hp, hkey⟩ := List.mem_map.mp hmem
    have hne := List.lookup_eq_none_iff.mp hlookup p hp
    simp [hkey] at hne
  | some n =>
    obtain ⟨before, after, rfl, -⟩ := List.lookup_eq_some_iff.mp hlookup
    exact count_of_mem h (List.mem_append_right before List.mem_cons_self)

/-- Of a recorded key neither a proper beginning nor a proper continuation is recorded. -/
theorem text_not_mem_of_part (h : (writtenPairs t.counts).Perm pairs) {p : String × Nat}
    (hp : p ∈ pairs) (hne : key.text ≠ p.1)
    (hpart : key.text.toList <+: p.1.toList ∨ p.1.toList <+: key.text.toList) :
    key.text ∉ pairs.map (·.1) := by
  intro hmem
  obtain ⟨q, hq, hkey⟩ := List.mem_map.mp hmem
  have hlength : key.text.toList.length = p.1.toList.length := by
    rw [String.length_toList, String.length_toList, ← hkey, length_eq_of_perm h hq,
      length_eq_of_perm h hp]
  apply hne
  rw [← String.toList_inj]
  rcases hpart with hpart | hpart
  · exact hpart.eq_of_length hlength
  · exact (hpart.eq_of_length hlength.symm).symm

theorem mem_keys_iff_of_perm (h : (writtenPairs t.counts).Perm pairs) :
    key ∈ t.counts.keys ↔ key.text ∈ pairs.map (·.1) := by
  rw [← (h.map (·.1)).mem_iff, map_fst_writtenPairs]
  exact (List.mem_map_of_injective fun _ _ => Bitstring.text_injective).symm

theorem map_count_keys (t : DistributionTable) : t.counts.keys.map t.count = t.weights := by
  rw [OrderedMap.keys, weights, OrderedMap.values, List.map_map]
  exact List.map_congr_left fun e he => count_eq_of_mem he

theorem sum_count_keys (h : (writtenPairs t.counts).Perm pairs) {keys : List Bitstring}
    (hnodup : keys.Nodup) (hkeys : ∀ key, key ∈ keys ↔ key.text ∈ pairs.map (·.1)) :
    (keys.map t.count).sum = t.total := by
  have hperm : keys.Perm t.counts.keys := by
    refine (List.perm_ext_iff_of_nodup hnodup t.counts.nodup_keys).mpr fun key => ?_
    exact (hkeys key).trans (mem_keys_iff_of_perm h).symm
  rw [(hperm.map t.count).sum_nat, t.map_count_keys]
  rfl

/-- **A table counts as its list does.** The count of any key, of whatever width, is what a look-up
of its text in the list gives, wherever the pair stands there, and zero for a text that the list
does not have: so for every proper beginning and every proper continuation of a recorded key. The
counts of the different keys of the list make up the total. -/
theorem count_looks_up_list (ht : ofCounts label pairs = .ok t) :
    (∀ key : Bitstring, t.count key = (pairs.lookup key.text).getD 0) ∧
    (∀ (key : Bitstring) n, (key.text, n) ∈ pairs → t.count key = n) ∧
    (∀ key : Bitstring, key.text ∉ pairs.map (·.1) → t.count key = 0) ∧
    (∀ key : Bitstring, ∀ p ∈ pairs, key.text ≠ p.1 →
      key.text.toList <+: p.1.toList ∨ p.1.toList <+: key.text.toList → t.count key = 0) ∧
    ∀ keys : List Bitstring, keys.Nodup → (∀ key, key ∈ keys ↔ key.text ∈ pairs.map (·.1)) →
      (keys.map t.count).sum = t.total := by
  obtain ⟨-, hperm⟩ := ofCounts_eq_ok_iff.mp ht
  refine ⟨count_eq_lookup hperm, fun key n hmem => count_of_mem hperm hmem,
    fun key hnot => count_of_not_mem hperm hnot, ?_, ?_⟩
  · intro key p hp hne hpart
    exact count_of_not_mem hperm (text_not_mem_of_part hperm hp hne hpart)
  · intro keys hnodup hkeys
    exact sum_count_keys hperm hnodup hkeys

/-- Three bits that were only ever set from the right. -/
def risingBits : DistributionTable :=
  ⟨none, 3, ⟨[(⟨[false, false, true], by decide⟩, 0), (⟨[false, true, true], by decide⟩, 5),
    (⟨[true, true, true], by decide⟩, 3)], by decide⟩, by decide, by decide, by decide⟩

/-- The counts are found though the list stands the other way round; what begins a key or goes on
behind it is not. -/
theorem risingBits_counts :
    ofCounts none [("111", 3), ("011", 5), ("001", 0)] = .ok risingBits ∧
      risingBits.count ⟨[false, true, true], by decide⟩ = 5 ∧
      risingBits.count ⟨[false, true], by decide⟩ = 0 ∧
      risingBits.count ⟨[true, true, true, false], by decide⟩ = 0 ∧
      (risingBits.counts.keys.map risingBits.count).sum = 8 := by
  have ht : ofCounts none [("111", 3), ("011", 5), ("001", 0)] = .ok risingBits := by rfl
  obtain ⟨-, hfound, -, hpart, hsum⟩ := count_looks_up_list ht
  refine ⟨ht, hfound ⟨[false, true, true], by decide⟩ 5 (by decide),
    hpart ⟨[false, true], by decide⟩ ("011", 5) (by decide) (by decide) (.inl (by decide)),
    hpart ⟨[true, true, true, false], by decide⟩ ("111", 3) (by decide) (by decide)
      (.inr (by decide)),
    hsum _ risingBits.counts.nodup_keys fun key => ?_⟩
  exact mem_keys_iff_of_perm (ofCounts_eq_ok_iff.mp ht).2

end Readout.DistributionTable
