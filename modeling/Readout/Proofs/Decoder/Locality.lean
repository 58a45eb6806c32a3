import Readout.Proofs.Decoder.RoundTrip

/-!
# Fields do not interfere

A field writes nothing outside of its range and reads nothing outside of it. Two bitstrings agree on
a range exactly if the range reads the same in both (`readRange_eq_iff`), so the indices tell where
two bitstrings can differ: every position lies in the range of some field, and outside the range of
one field it lies in that of another (`getElem?_eq_of_agreeOn_others`).
-/

namespace Readout

/-- Equal digits are equal bits. -/
theorem readRange_eq_iff {bits bits' : List Bool} {r : BitRange}
    (h : r.start + r.width ≤ bits.length) (h' : r.start + r.width ≤ bits'.length) :
    readRange bits r = readRange bits' r ↔ ∀ p, r.Holds p → bits[p]? = bits'[p]? := by
  constructor
  · intro heq p hp
    rw [← getElem?_binaryDigits_readRange h hp, heq, getElem?_binaryDigits_readRange h' hp]
  · intro hagree
    refine readRange_eq_of_digits (readRange_lt h') fun p hp => ?_
    rw [hagree p hp, getElem?_binaryDigits_readRange h' hp]

/-- The bitstrings have the same bits in the range. -/
def AgreeOn (r : BitRange) (s t : Bitstring) : Prop := ∀ p, r.Holds p → s.bits[p]? = t.bits[p]?

namespace Decoder

variable {d : Decoder} {s t : Bitstring} {f : Field} {k : Nat}

theorem readRange_eq_iff_agreeOn (hwidth : d.width < maxWord) (hs : s.width = d.width)
    (ht : t.width = d.width) (hf : f ∈ d.fields) :
    readRange s.bits f.range = readRange t.bits f.range ↔ AgreeOn f.range s t := by
  have hfits := d.range_fits hwidth hf
  exact readRange_eq_iff (hfits.trans (Nat.le_of_eq hs.symm)) (hfits.trans (Nat.le_of_eq ht.symm))

/-- Outside the range of a field lie the ranges of the others. -/
theorem getElem?_eq_of_agreeOn_others (hwidth : d.width < maxWord) (hs : s.width = d.width)
    (ht : t.width = d.width) (hf : d.fields[k]? = some f)
    (hothers : ∀ i g, i ≠ k → d.fields[i]? = some g → AgreeOn g.range s t) {p : Nat}
    (hp : ¬ f.range.Holds p) : s.bits[p]? = t.bits[p]? := by
  by_cases hinside : p < d.width
  · obtain ⟨r, hr, hold⟩ := (d.tiles hwidth).exists_holds hinside
    obtain ⟨g, hg, rfl⟩ := List.mem_map.mp hr
    obtain ⟨i, hi⟩ := List.getElem?_of_mem hg
    refine hothers i g ?_ hi p hold
    rintro rfl
    obtain rfl : f = g := Option.some.inj (hf.symm.trans hi)
    exact hp hold
  · have hs' : s.bits.length ≤ p := hs.trans_le (Nat.le_of_not_lt hinside)
    have ht' : t.bits.length ≤ p := ht.trans_le (Nat.le_of_not_lt hinside)
    rw [List.getElem?_eq_none hs', List.getElem?_eq_none ht']

theorem getElem?_eq_of_encode (hwidth : d.width < maxWord)
    (hbanks : ∀ f ∈ d.fields, f.bank.size ≤ maxWord) {v : List Nat} (h : d.encode v = .ok s)
    {i : Nat} {g : Field} (hg : d.fields[i]? = some g) :
    v[i]? = some (readRange s.bits g.range) := by
  rw [← ((encode_eq_ok_iff_reads hwidth hbanks).mp h).2, List.getElem?_map, hg]
  rfl

/-- Of two encoded lists an index is the same exactly if nothing differs in the field's range. -/
theorem getElem?_eq_iff_agreeOn (hwidth : d.width < maxWord)
    (hbanks : ∀ f ∈ d.fields, f.bank.size ≤ maxWord) {v w : List Nat} (hv : d.encode v = .ok s)
    (hw : d.encode w = .ok t) {i : Nat} {g : Field} (hg : d.fields[i]? = some g) :
    v[i]? = w[i]? ↔ AgreeOn g.range s t := by
  rw [getElem?_eq_of_encode hwidth hbanks hv hg, getElem?_eq_of_encode hwidth hbanks hw hg,
    Option.some.injEq]
  exact readRange_eq_iff_agreeOn hwidth (width_of_encode hwidth hv) (width_of_encode hwidth hw)
    (List.mem_of_getElem? hg)

/-- **Fields do not interfere.** Lists of indices that differ for one field only encode to bitstrings
that agree outside the range of that field and differ somewhere inside of it. The other way round,
the index that a field reads in two bitstrings is the same exactly if they agree on its range,
whatever stands elsewhere. -/
theorem fields_do_not_interfere (d : Decoder) (hwidth : d.width < maxWord)
    (hbanks : ∀ f ∈ d.fields, f.bank.size ≤ maxWord) {k : Nat} {f : Field}
    (hf : d.fields[k]? = some f) :
    (∀ v w s t, d.encode v = .ok s → d.encode w = .ok t → v[k]? ≠ w[k]? →
      (∀ i, i ≠ k → v[i]? = w[i]?) →
      (∀ p, ¬ f.range.Holds p → s.bits[p]? = t.bits[p]?) ∧
      ∃ p, f.range.Holds p ∧ s.bits[p]? ≠ t.bits[p]?) ∧
    ∀ s t : Bitstring, s.width = d.width → t.width = d.width →
      ∃ v w a b, d.indices s = .ok v ∧ d.indices t = .ok w ∧ v[k]? = some a ∧ w[k]? = some b ∧
        (a = b ↔ AgreeOn f.range s t) := by
  have hmem : f ∈ d.fields := List.mem_of_getElem? hf
  refine ⟨fun v w s t hv hw hk hothers => ⟨fun p hp => ?_, ?_⟩, fun s t hs ht => ?_⟩
  · refine getElem?_eq_of_agreeOn_others hwidth (width_of_encode hwidth hv)
      (width_of_encode hwidth hw) hf (fun i g hi hg => ?_) hp
    exact (getElem?_eq_iff_agreeOn hwidth hbanks hv hw hg).mp (hothers i hi)
  · by_contra hnone
    refine hk ((getElem?_eq_iff_agreeOn hwidth hbanks hv hw hf).mpr fun p hp => ?_)
    by_contra hne
    exact hnone ⟨p, hp, hne⟩
  · refine ⟨_, _, readRange s.bits f.range, readRange t.bits f.range,
      indices_eq_ok hwidth hbanks hs, indices_eq_ok hwidth hbanks ht, ?_, ?_,
      readRange_eq_iff_agreeOn hwidth hs ht hmem⟩
    · rw [List.getElem?_map, hf]
      rfl
    · rw [List.getElem?_map, hf]
      rfl

/-- Spring in place of autumn changes the last two of three bits and leaves the light alone. -/
theorem crossedDecoder_season_apart :
    crossedDecoder.width < maxWord ∧ (∀ f ∈ crossedDecoder.fields, f.bank.size ≤ maxWord) ∧
      ∃ f s t, crossedDecoder.fields[0]? = some f ∧ f.range = ⟨1, 2⟩ ∧
        crossedDecoder.encode [2, 1] = .ok s ∧ crossedDecoder.encode [0, 1] = .ok t ∧
        s.bits[0]? = t.bits[0]? ∧ ∃ p, f.range.Holds p ∧ s.bits[p]? ≠ t.bits[p]? := by
  have hwidth : crossedDecoder.width < maxWord := by decide
  have hbanks : ∀ f ∈ crossedDecoder.fields, f.bank.size ≤ maxWord := by decide
  obtain ⟨s, hs, -⟩ := exists_encode_eq_ok (v := [2, 1]) hwidth rfl (by decide)
  obtain ⟨t, ht, -⟩ := exists_encode_eq_ok (v := [0, 1]) hwidth rfl (by decide)
  obtain ⟨hlocal, -⟩ := fields_do_not_interfere crossedDecoder hwidth hbanks (k := 0) rfl
  obtain ⟨houtside, hinside⟩ := hlocal [2, 1] [0, 1] s t hs ht (by decide) fun i hi => by
    obtain ⟨j, rfl⟩ := Nat.exists_eq_succ_of_ne_zero hi
    rfl
  exact ⟨hwidth, hbanks, _, s, t, rfl, rfl, hs, ht, houtside 0 (by decide), hinside⟩

end Decoder

end Readout
