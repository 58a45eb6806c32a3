import Readout.Proofs.Table.Acceptance
import Readout.Ranking

/-!
# Rankings in order

Every ranking of a table is cut off the front of one list, its entries in the order of rank
(`map_entry_ranking`). The keys of a table differ, so that no two entries share a place in this
order (`pairwise_ranked`): what is cut off is fixed by the entries alone, and whatever is left out
stands below all that is listed (`ranksAbove_of_not_listed`).
-/

namespace Readout

/-- The entry of the table that is ranked. -/
def RankedEntry.entry (e : RankedEntry) : Bitstring × Nat := (e.key, e.count)

namespace DistributionTable

open Std

/-- The first entry stands above the second: its count is higher or, at equal counts, its key is
lower. -/
def RanksAbove (a b : Bitstring × Nat) : Prop := b.2 < a.2 ∨ a.2 = b.2 ∧ compare a.1 b.1 = .lt

/-! ## The order of rank -/

theorem ranksBefore_iff {a b : Bitstring × Nat} :
    ranksBefore a b = true ↔ b.2 < a.2 ∨ b.2 = a.2 ∧ (compare a.1 b.1).isLE = true := by
  rw [ranksBefore, Ordering.isLE_then_iff_or, Nat.compare_eq_lt, Nat.compare_eq_eq]

theorem ranksBefore_trans (a b c : Bitstring × Nat) (h : ranksBefore a b = true)
    (h' : ranksBefore b c = true) : ranksBefore a c = true := by
  rw [ranksBefore_iff] at *
  rcases h with h | ⟨h, hkey⟩
  · left
    omega
  · rcases h' with h' | ⟨h', hkey'⟩
    · left
      omega
    · right
      exact ⟨h'.trans h, TransCmp.isLE_trans hkey hkey'⟩

theorem ranksBefore_total (a b : Bitstring × Nat) :
    (ranksBefore a b || ranksBefore b a) = true := by
  rw [Bool.or_eq_true, ranksBefore_iff, ranksBefore_iff]
  rcases Nat.lt_trichotomy a.2 b.2 with h | h | h
  · exact .inr (.inl h)
  · cases hkey : compare a.1 b.1 with
    | lt => exact .inl (.inr ⟨h.symm, rfl⟩)
    | eq => exact .inl (.inr ⟨h.symm, rfl⟩)
    | gt =>
      have hswap : compare b.1 a.1 = .lt := OrientedCmp.gt_iff_lt.mp hkey
      rw [hswap]
      exact .inr (.inr ⟨h, rfl⟩)
  · exact .inl (.inl h)

/-- Entries with different keys do not share a place. -/
theorem ranksAbove_of_ranksBefore {a b : Bitstring × Nat} (h : ranksBefore a b = true)
    (hkey : a.1 ≠ b.1) : RanksAbove a b := by
  rcases ranksBefore_iff.mp h with hcount | ⟨hcount, hle⟩
  · exact .inl hcount
  · right
    refine ⟨hcount.symm, ?_⟩
    rcases Ordering.isLE_iff_eq_lt_or_eq_eq.mp hle with hlt | heq
    · exact hlt
    · exact absurd (LawfulEqCmp.eq_of_compare heq) hkey

/-! ## All entries by rank -/

/-- The entries from the first rank to the last. -/
def ranked (t : DistributionTable) : List (Bitstring × Nat) := t.entries.mergeSort ranksBefore

variable {t : DistributionTable} {n m : Nat} {e : RankedEntry}

theorem ranked_perm (t : DistributionTable) : t.ranked.Perm t.entries := List.mergeSort_perm _ _

theorem nodup_keys_ranked (t : DistributionTable) : (t.ranked.map (·.1)).Nodup := by
  rw [(t.ranked_perm.map (·.1)).nodup_iff]
  exact t.counts.nodup_keys

theorem pairwise_ranked (t : DistributionTable) : t.ranked.Pairwise RanksAbove := by
  have hsorted : t.ranked.Pairwise fun a b => ranksBefore a b = true :=
    List.pairwise_mergeSort ranksBefore_trans ranksBefore_total t.entries
  have hkeys : t.ranked.Pairwise fun a b => a.1 ≠ b.1 := List.pairwise_map.mp t.nodup_keys_ranked
  exact hsorted.imp₂ (fun _ _ hle hne => ranksAbove_of_ranksBefore hle hne) hkeys

/-! ## Rankings -/

theorem map_entry_ranking (t : DistributionTable) (n : Nat) :
    (t.ranking n).map (·.entry) = t.ranked.take n := by
  rw [ranking, List.map_map]
  exact List.zipIdx_map_fst 0 (t.ranked.take n)

theorem entry_mem_take (h : e ∈ t.ranking n) : e.entry ∈ t.ranked.take n := by
  rw [← map_entry_ranking]
  exact List.mem_map_of_mem h

theorem length_take_ranked (t : DistributionTable) (n : Nat) :
    (t.ranked.take n).length = min n t.size := by
  rw [List.length_take, t.ranked_perm.length_eq, size]

theorem length_ranking (t : DistributionTable) (n : Nat) : (t.ranking n).length = min n t.size := by
  rw [← List.length_map (·.entry), map_entry_ranking, length_take_ranked]

/-- What is ranked is an entry of the table. -/
theorem of_mem_ranking (h : e ∈ t.ranking n) :
    (e.key, e.count) ∈ t.entries ∧ e.total = t.total := by
  refine ⟨t.ranked_perm.mem_iff.mp (List.mem_of_mem_take (entry_mem_take h)), ?_⟩
  obtain ⟨_, _, rfl⟩ := List.mem_map.mp h
  rfl

theorem map_rank_ranking (t : DistributionTable) (n : Nat) :
    (t.ranking n).map (·.rank) = List.range' 1 (min n t.size) := by
  have hranks : (t.ranking n).map (·.rank) = ((t.ranked.take n).zipIdx.map (·.2)).map (· + 1) := by
    rw [ranking, List.map_map, List.map_map]
    rfl
  rw [hranks, List.zipIdx_map_snd, length_take_ranked]
  simp only [Nat.add_comm _ 1]
  exact List.map_add_range' 0 _ 1

theorem ranking_prefix (t : DistributionTable) (h : n ≤ m) : t.ranking n <+: t.ranking m := by
  obtain ⟨rest, hrest⟩ := List.take_prefix_take_left (l := t.ranked) h
  show List.map _ (t.ranked.take n).zipIdx <+: List.map _ (t.ranked.take m).zipIdx
  apply List.IsPrefix.map
  rw [← hrest, List.zipIdx_append]
  exact List.prefix_append _ _

theorem pairwise_ranking (t : DistributionTable) (n : Nat) :
    (t.ranking n).Pairwise fun a b => RanksAbove a.entry b.entry := by
  rw [← List.pairwise_map (f := RankedEntry.entry), map_entry_ranking]
  exact t.pairwise_ranked.sublist (List.take_sublist n t.ranked)

theorem nodup_keys_ranking (t : DistributionTable) (n : Nat) :
    ((t.ranking n).map (·.key)).Nodup := by
  have hkeys : (t.ranking n).map (·.key) = (t.ranked.take n).map (·.1) := by
    rw [← map_entry_ranking, List.map_map]
    rfl
  rw [hkeys]
  exact t.nodup_keys_ranked.sublist ((List.take_sublist n t.ranked).map _)

theorem ranksAbove_of_not_listed {entry : Bitstring × Nat} (hentry : entry ∈ t.entries)
    (hleft : ∀ e ∈ t.ranking n, e.entry ≠ entry) :
    ∀ e ∈ t.ranking n, RanksAbove e.entry entry := by
  intro e he
  have hsplit : (t.ranked.take n ++ t.ranked.drop n).Pairwise RanksAbove := by
    rw [List.take_append_drop]
    exact t.pairwise_ranked
  -- what is not in the part that is cut off is behind it
  have hbehind : entry ∈ t.ranked.drop n := by
    have hmem : entry ∈ t.ranked.take n ++ t.ranked.drop n := by
      rw [List.take_append_drop]
      exact t.ranked_perm.mem_iff.mpr hentry
    rcases List.mem_append.mp hmem with hfront | hback
    · rw [← map_entry_ranking] at hfront
      obtain ⟨d, hd, heq⟩ := List.mem_map.mp hfront
      exact absurd heq (hleft d hd)
    · exact hback
  exact (List.pairwise_append.mp hsplit).2.2 e.entry (entry_mem_take he) entry hbehind

/-- Tables of the same pairs rank alike, in whatever order and under whatever label they are
given. -/
theorem exists_ranking_eq {label : Option String} {pairs reordered : List (String × Nat)}
    (h : ofCounts label pairs = .ok t) (label' : Option String) (hperm : reordered.Perm pairs) :
    ∃ u, ofCounts label' reordered = .ok u ∧ ∀ n, u.ranking n = t.ranking n := by
  obtain ⟨-, hpairs⟩ := ofCounts_eq_ok_iff.mp h
  refine ⟨{ t with label := label' }, ?_, fun n => rfl⟩
  exact ofCounts_eq_ok_iff.mpr ⟨rfl, hpairs.trans hperm.symm⟩

/-- **A ranking lists the highest entries in their order.** It has as many as are asked for and
there are, at the ranks from one on, all of them different entries of the table with their counts.
Each stands above those behind it and above every entry that is left out. A longer ranking goes on
where a shorter one ends, and the order in which the counts were given does not matter. -/
theorem ranking_lists_highest (t : DistributionTable) (n : Nat) :
    (t.ranking n).length = min n t.size ∧
    (t.ranking n).map (·.rank) = List.range' 1 (min n t.size) ∧
    ((t.ranking n).map (·.key)).Nodup ∧
    (∀ e ∈ t.ranking n, (e.key, e.count) ∈ t.entries ∧ e.count = t.count e.key) ∧
    ((t.ranking n).Pairwise fun a b => RanksAbove (a.key, a.count) (b.key, b.count)) ∧
    (∀ entry ∈ t.entries, (∀ e ∈ t.ranking n, (e.key, e.count) ≠ entry) →
      ∀ e ∈ t.ranking n, RanksAbove (e.key, e.count) entry) ∧
    (∀ m, n ≤ m → t.ranking n <+: t.ranking m) ∧
    ∀ label pairs, ofCounts label pairs = .ok t → ∀ label' reordered, reordered.Perm pairs →
      ∃ u, ofCounts label' reordered = .ok u ∧ u.ranking n = t.ranking n := by
  refine ⟨t.length_ranking n, t.map_rank_ranking n, t.nodup_keys_ranking n, ?_,
    t.pairwise_ranking n, ?_, ?_, ?_⟩
  · intro e he
    obtain ⟨hmem, -⟩ := of_mem_ranking he
    exact ⟨hmem, (count_eq_of_mem hmem).symm⟩
  · intro entry hentry hleft
    exact ranksAbove_of_not_listed hentry hleft
  · intro m hm
    exact t.ranking_prefix hm
  · intro label pairs h label' reordered hperm
    obtain ⟨u, hu, hsame⟩ := exists_ranking_eq h label' hperm
    exact ⟨u, hu, hsame n⟩

/-- Equal counts stand in the order of their keys, and the lowest count is left out. -/
example : ((ofCounts none
    [("011", 5), ("000", 9), ("110", 5), ("001", 1), ("101", 5)]).toOption.map fun t =>
      (t.ranking 4).map fun e => (e.rank, e.key.text, e.count)) =
    some [(1, "000", 9), (2, "011", 5), (3, "101", 5), (4, "110", 5)] := by
  cbv

end DistributionTable

end Readout
