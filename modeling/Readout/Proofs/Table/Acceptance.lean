import Mathlib.Data.List.Nodup
import Mathlib.Data.List.Perm.Basic
import Readout.DistributionTable
import Readout.Proofs.Bitstring.Texts
import Readout.Proofs.Table.Insertion

/-!
# Which lists are tables

A table is gathered pair by pair, each checked against what is gathered so far. Written out, what is
gathered is always what was there before and the pairs gone through (`addAll_eq_ok_iff`), so a table
is returned for a list exactly if the list is the table written out in some order
(`ofCounts_eq_ok_iff`). This leaves the lists that are `Acceptable`, whatever their order.
-/

namespace Readout

/-! ## Written counts -/

/-- Counts written out: each key as its text. -/
def writtenPairs (m : OrderedMap Bitstring Nat) : List (String × Nat) :=
  m.entries.map fun e => (e.1.text, e.2)

variable {m n : OrderedMap Bitstring Nat}

theorem map_fst_writtenPairs (m : OrderedMap Bitstring Nat) :
    (writtenPairs m).map (·.1) = m.keys.map Bitstring.text := by
  rw [writtenPairs, OrderedMap.keys, List.map_map, List.map_map]
  rfl

theorem map_snd_writtenPairs (m : OrderedMap Bitstring Nat) :
    (writtenPairs m).map (·.2) = m.values := by
  rw [writtenPairs, OrderedMap.values, List.map_map]
  rfl

theorem mem_writtenPairs {p : String × Nat} :
    p ∈ writtenPairs m ↔ ∃ key, (key, p.2) ∈ m.entries ∧ key.text = p.1 := by
  rw [writtenPairs, List.mem_map]
  constructor
  · rintro ⟨e, he, rfl⟩
    exact ⟨e.1, he, rfl⟩
  · rintro ⟨key, he, htext⟩
    exact ⟨(key, p.2), he, by rw [htext]⟩

theorem nodup_writtenPairs (m : OrderedMap Bitstring Nat) :
    ((writtenPairs m).map (·.1)).Nodup := by
  rw [map_fst_writtenPairs]
  exact List.Nodup.map (fun _ _ => Bitstring.text_injective) m.nodup_keys

theorem eq_of_writtenPairs_perm (h : (writtenPairs m).Perm (writtenPairs n)) : m = n := by
  have hinj : Function.Injective fun e : Bitstring × Nat => (e.1.text, e.2) := by
    rintro ⟨s, a⟩ ⟨t, b⟩ heq
    obtain ⟨htext, hcount⟩ := Prod.mk.inj heq
    exact Prod.ext (Bitstring.text_injective htext) hcount
  exact OrderedMap.eq_of_perm ((List.map_perm_map_iff hinj).mp h)

theorem writtenPairs_insert_perm {key : Bitstring} (count : Nat) (h : m.get? key = none) :
    (writtenPairs (m.insert key count)).Perm ((key.text, count) :: writtenPairs m) :=
  (OrderedMap.entries_insert_perm h).map _

/-- A pair that stands beside all of `m` has a key that `m` lacks. -/
theorem exists_key_of_perm {p : String × Nat} {rest : List (String × Nat)}
    (h : (writtenPairs n).Perm (writtenPairs m ++ p :: rest)) :
    ∃ key, (key, p.2) ∈ n.entries ∧ key.text = p.1 ∧ m.get? key = none := by
  have hmem : p ∈ writtenPairs n :=
    h.mem_iff.mpr (List.mem_append_right _ List.mem_cons_self)
  obtain ⟨key, hkey, htext⟩ := mem_writtenPairs.mp hmem
  have hnodup := ((h.trans List.perm_middle).map (·.1)).nodup_iff.mp (nodup_writtenPairs n)
  rw [List.map_cons, List.nodup_cons, List.map_append, List.mem_append, not_or] at hnodup
  refine ⟨key, hkey, htext, OrderedMap.get?_eq_none_iff.mpr fun e he heq => hnodup.1.1 ?_⟩
  rw [map_fst_writtenPairs, List.mem_map]
  exact ⟨e.1, List.mem_map_of_mem he, by rw [heq, htext]⟩

theorem exists_writtenPairs_perm {pairs : List (String × Nat)}
    (htexts : ∀ p ∈ pairs, IsBitText p.1) (hnodup : (pairs.map (·.1)).Nodup) :
    ∃ m, (writtenPairs m).Perm pairs := by
  have hread : ∃ l : List (Bitstring × Nat), (l.map fun e => (e.1.text, e.2)) = pairs := by
    clear hnodup
    induction pairs with
    | nil => exact ⟨[], rfl⟩
    | cons p rest ih =>
      obtain ⟨key, htext⟩ := Bitstring.exists_text_eq_iff.mpr (htexts p List.mem_cons_self)
      obtain ⟨l, hl⟩ := ih fun q hq => htexts q (List.mem_cons_of_mem p hq)
      exact ⟨(key, p.2) :: l, by rw [List.map_cons, hl, htext]⟩
  obtain ⟨l, rfl⟩ := hread
  have hkeys : (l.map (·.1)).Nodup := by
    rw [List.map_map] at hnodup
    exact List.Nodup.of_map Bitstring.text (by rw [List.map_map]; exact hnodup)
  exact ⟨OrderedMap.ofList l, (OrderedMap.entries_ofList_perm hkeys).map _⟩

namespace DistributionTable

variable {label : Option String} {pairs : List (String × Nat)} {t : DistributionTable}

/-! ## Gathering pairs -/

section Draft

variable {width : Nat} {draft next last : Draft width} {pair : String × Nat}

theorem Draft.ext (h : draft.counts = last.counts) : draft = last := by
  obtain ⟨_, _⟩ := draft
  obtain ⟨_, _⟩ := last
  simp only at h
  subst h
  rfl

/-- A pair is taken exactly if its key is the text of a bitstring of the width that is not there
yet. -/
theorem Draft.add_eq_ok_iff :
    draft.add label pair = .ok next ↔ ∃ key : Bitstring, key.text = pair.1 ∧ key.width = width ∧
      draft.counts.get? key = none ∧ next.counts = draft.counts.insert key pair.2 := by
  constructor
  · intro h
    unfold Draft.add at h
    split at h
    · cases h
    · rename_i key hkey
      split at h
      · rename_i hwidth
        split at h
        · cases h
        · rename_i hcontains
          obtain rfl := Except.ok.inj h
          exact ⟨key, Bitstring.parse_eq_ok_iff.mp hkey, hwidth,
            Option.not_isSome_iff_eq_none.mp hcontains, rfl⟩
      · cases h
  · rintro ⟨key, htext, hwidth, hnone, hcounts⟩
    have hcontains : ¬ draft.counts.contains key = true := by
      rw [OrderedMap.contains, hnone]
      exact nofun
    unfold Draft.add
    rw [Bitstring.parse_eq_ok_iff.mpr htext]
    simp only
    rw [dif_pos hwidth, if_neg hcontains]
    exact congrArg Except.ok (Draft.ext hcounts.symm)

theorem Draft.writtenPairs_of_add (h : draft.add label pair = .ok next) :
    (writtenPairs next.counts).Perm (pair :: writtenPairs draft.counts) := by
  obtain ⟨key, htext, -, hnone, hcounts⟩ := Draft.add_eq_ok_iff.mp h
  rw [hcounts]
  have hperm := writtenPairs_insert_perm pair.2 hnone
  rwa [htext] at hperm

theorem Draft.exists_add_of_perm (label : Option String) {rest : List (String × Nat)}
    (h : (writtenPairs last.counts).Perm (writtenPairs draft.counts ++ pair :: rest)) :
    ∃ next, draft.add label pair = .ok next := by
  obtain ⟨key, hkey, htext, hnone⟩ := exists_key_of_perm h
  have hwidth : key.width = width := last.width_eq _ hkey
  refine ⟨⟨draft.counts.insert key pair.2, fun e he => ?_⟩,
    Draft.add_eq_ok_iff.mpr ⟨key, htext, hwidth, hnone, rfl⟩⟩
  rcases OrderedMap.mem_insertEntry he with rfl | he
  · exact hwidth
  · exact draft.width_eq e he

/-- All pairs are taken exactly if a draft has those of before and these. -/
theorem Draft.addAll_eq_ok_iff :
    draft.addAll label pairs = .ok last ↔
      (writtenPairs last.counts).Perm (writtenPairs draft.counts ++ pairs) := by
  induction pairs generalizing draft with
  | nil =>
    rw [List.append_nil]
    constructor
    · intro h
      obtain rfl := Except.ok.inj h
      exact .refl _
    · intro h
      exact congrArg Except.ok (Draft.ext (eq_of_writtenPairs_perm h.symm))
  | cons pair rest ih =>
    rw [Draft.addAll]
    constructor
    · intro h
      split at h
      · cases h
      · rename_i next hnext
        have hmiddle := (Draft.writtenPairs_of_add hnext).append_right rest
        exact (ih.mp h).trans (hmiddle.trans List.perm_middle.symm)
    · intro h
      -- no pair of the list repeats a key, as the keys of `last` differ
      obtain ⟨next, hnext⟩ := Draft.exists_add_of_perm label h
      have hmiddle := (Draft.writtenPairs_of_add hnext).append_right rest
      rw [hnext]
      exact ih.mpr (h.trans (List.perm_middle.trans hmiddle.symm))

end Draft

/-! ## Tables of lists -/

/-- A table is returned for the lists that are the table written out, in any order. -/
theorem ofCounts_eq_ok_iff :
    ofCounts label pairs = .ok t ↔ t.label = label ∧ (writtenPairs t.counts).Perm pairs := by
  constructor
  · intro h
    unfold ofCounts at h
    split at h
    · cases h
    · split at h
      · cases h
      · split at h
        · cases h
        · rename_i draft hdraft
          unfold Draft.finish at h
          split at h
          · split at h
            · obtain rfl := Except.ok.inj h
              exact ⟨rfl, Draft.addAll_eq_ok_iff.mp hdraft⟩
            · cases h
          · cases h
  · rintro ⟨rfl, hperm⟩
    cases pairs with
    | nil =>
      refine absurd ?_ t.entries_ne_nil
      exact List.map_eq_nil_iff.mp hperm.eq_nil
    | cons first rest =>
      obtain ⟨key, hkey, htext, -⟩ := exists_key_of_perm (m := ∅) hperm
      obtain ⟨label, width, counts, hwidths, hpos, hle⟩ := t
      obtain rfl : key.width = width := hwidths _ hkey
      have hall : (Draft.empty key.width).addAll label (first :: rest) = .ok ⟨counts, hwidths⟩ :=
        Draft.addAll_eq_ok_iff.mpr hperm
      unfold ofCounts
      simp only [Bitstring.parse_eq_ok_iff.mpr htext, hall]
      rw [Draft.finish, dif_pos hle, dif_pos hpos]

/-- The lists of counts that make a table: there is a pair, the keys are texts of bits of one
length and differ, and the sum of the counts is positive and fits a word. -/
structure Acceptable (pairs : List (String × Nat)) : Prop where
  ne_nil : pairs ≠ []
  isBitText : ∀ p ∈ pairs, IsBitText p.1
  length_eq : ∀ p ∈ pairs, ∀ q ∈ pairs, p.1.length = q.1.length
  nodup : (pairs.map (·.1)).Nodup
  one_le : 1 ≤ (pairs.map (·.2)).sum
  sum_le : (pairs.map (·.2)).sum ≤ maxWord

theorem weights_perm_of_perm (h : (writtenPairs t.counts).Perm pairs) :
    t.weights.Perm (pairs.map (·.2)) := by
  have hcounts := h.map (·.2)
  rwa [map_snd_writtenPairs] at hcounts

theorem total_eq_of_perm (h : (writtenPairs t.counts).Perm pairs) :
    t.total = (pairs.map (·.2)).sum :=
  (weights_perm_of_perm h).sum_nat

theorem length_eq_of_perm (h : (writtenPairs t.counts).Perm pairs) {p : String × Nat}
    (hp : p ∈ pairs) : p.1.length = t.width := by
  obtain ⟨key, hkey, htext⟩ := mem_writtenPairs.mp (h.mem_iff.mpr hp)
  rw [← htext, key.length_text]
  exact width_eq_of_mem hkey

theorem acceptable_of_perm (h : (writtenPairs t.counts).Perm pairs) : Acceptable pairs where
  ne_nil := by
    rintro rfl
    exact t.entries_ne_nil (List.map_eq_nil_iff.mp h.eq_nil)
  isBitText p hp := by
    obtain ⟨key, -, htext⟩ := mem_writtenPairs.mp (h.mem_iff.mpr hp)
    exact Bitstring.exists_text_eq_iff.mp ⟨key, htext⟩
  length_eq p hp q hq := by rw [length_eq_of_perm h hp, length_eq_of_perm h hq]
  nodup := (h.map (·.1)).nodup_iff.mp (nodup_writtenPairs t.counts)
  one_le := by
    rw [← total_eq_of_perm h]
    exact t.total_pos
  sum_le := by
    rw [← total_eq_of_perm h]
    exact t.total_le

theorem Acceptable.exists_ofCounts (h : Acceptable pairs) : ∃ t, ofCounts label pairs = .ok t := by
  obtain ⟨counts, hperm⟩ := exists_writtenPairs_perm h.isBitText h.nodup
  obtain ⟨first, hfirst⟩ := List.exists_mem_of_ne_nil pairs h.ne_nil
  have hwidths : ∀ e ∈ counts.entries, e.1.width = first.1.length := by
    intro e he
    rw [← e.1.length_text]
    have hmem : (e.1.text, e.2) ∈ writtenPairs counts := mem_writtenPairs.mpr ⟨e.1, he, rfl⟩
    exact h.length_eq _ (hperm.mem_iff.mp hmem) _ hfirst
  have hsum : counts.values.sum = (pairs.map (·.2)).sum := by
    rw [← map_snd_writtenPairs, (hperm.map (·.2)).sum_nat]
  exact ⟨⟨label, first.1.length, counts, hwidths, hsum ▸ h.one_le, hsum ▸ h.sum_le⟩,
    ofCounts_eq_ok_iff.mpr ⟨rfl, hperm⟩⟩

/-- The texts of the keys stand in strictly ascending order. -/
theorem entries_pairwise_text_lt (t : DistributionTable) :
    t.entries.Pairwise fun a b => a.1.text < b.1.text :=
  t.counts.ascending.imp fun h => Bitstring.compare_eq_lt_iff_text_lt.mp h

/-- **A table loses and merges no pair.** There is a table exactly of the acceptable lists. Its
entries are the pairs of the list in strictly ascending order of their keys, its width is the length
of the keys and its total the sum of the counts. No other order of the list gives another result. -/
theorem ofCounts_keeps_pairs (label : Option String) (pairs : List (String × Nat)) :
    ((∃ t, ofCounts label pairs = .ok t) ↔ Acceptable pairs) ∧
    (∀ t, ofCounts label pairs = .ok t →
      (t.entries.map fun e => (e.1.text, e.2)).Perm pairs ∧
      (t.entries.Pairwise fun a b => a.1.text < b.1.text) ∧
      (∀ p ∈ pairs, p.1.length = t.width) ∧ t.total = (pairs.map (·.2)).sum ∧ t.label = label) ∧
    ∀ reordered, reordered.Perm pairs → ∀ t,
      ofCounts label reordered = .ok t ↔ ofCounts label pairs = .ok t := by
  refine ⟨⟨?_, Acceptable.exists_ofCounts⟩, fun t ht => ?_, fun reordered hreordered t => ?_⟩
  · rintro ⟨t, ht⟩
    exact acceptable_of_perm (ofCounts_eq_ok_iff.mp ht).2
  · obtain ⟨hlabel, hperm⟩ := ofCounts_eq_ok_iff.mp ht
    exact ⟨hperm, t.entries_pairwise_text_lt, fun _ => length_eq_of_perm hperm,
      total_eq_of_perm hperm, hlabel⟩
  · rw [ofCounts_eq_ok_iff, ofCounts_eq_ok_iff]
    exact and_congr_right fun _ => ⟨fun h => h.trans hreordered, fun h => h.trans hreordered.symm⟩

end DistributionTable

end Readout
