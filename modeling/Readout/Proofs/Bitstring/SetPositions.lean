import Readout.Scale

/-!
# Positions of set bits

The list of the positions whose bits are set is described place by place: at place `k` stands the
position of the set bit that has `k` set bits to its left (`getElem?_setPositions_eq_some_iff`). It
ascends, it is as long as bits are set, and together with the width it fixes the bitstring
(`eq_of_setPositions_eq`).
-/

namespace Readout.Bitstring

variable {s t : Bitstring} {k p : Nat}

/-- The bit at a position is set, and `k` of the bits to its left are. -/
def IsSetBit (s : Bitstring) (k p : Nat) : Prop :=
  s.bits[p]? = some true ∧ (s.bits.take p).count true = k

/-- The positions of the set bits of a list, where positions are counted from `start` on. -/
def setPositionsFrom (start : Nat) (bits : List Bool) : List Nat :=
  ((bits.zipIdx start).filter (·.1)).map (·.2)

theorem setPositions_eq (s : Bitstring) : s.setPositions = setPositionsFrom 0 s.bits := rfl

theorem setPositionsFrom_append (start : Nat) (front back : List Bool) :
    setPositionsFrom start (front ++ back) =
      setPositionsFrom start front ++ setPositionsFrom (start + front.length) back := by
  unfold setPositionsFrom
  rw [List.zipIdx_append, List.filter_append, List.map_append]

theorem setPositionsFrom_cons_true (start : Nat) (bits : List Bool) :
    setPositionsFrom start (true :: bits) = start :: setPositionsFrom (start + 1) bits := rfl

theorem setPositionsFrom_cons_false (start : Nat) (bits : List Bool) :
    setPositionsFrom start (false :: bits) = setPositionsFrom (start + 1) bits := rfl

theorem length_setPositionsFrom (start : Nat) (bits : List Bool) :
    (setPositionsFrom start bits).length = bits.count true := by
  induction bits generalizing start with
  | nil => rfl
  | cons b rest ih =>
    cases b with
    | false =>
      rw [setPositionsFrom_cons_false, ih, List.count_cons_of_ne]
      decide
    | true => rw [setPositionsFrom_cons_true, List.length_cons, ih, List.count_cons_self]

theorem length_setPositions (s : Bitstring) : s.setPositions.length = s.countOnes :=
  length_setPositionsFrom 0 s.bits

theorem mem_setPositions : p ∈ s.setPositions ↔ s.bits[p]? = some true := by
  unfold setPositions
  rw [List.mem_map]
  constructor
  · rintro ⟨⟨b, q⟩, hmem, rfl⟩
    obtain ⟨hmem, hset⟩ := List.mem_filter.mp hmem
    obtain rfl : b = true := hset
    exact List.mem_zipIdx_iff_getElem?.mp hmem
  · intro h
    exact ⟨(true, p), List.mem_filter.mpr ⟨List.mem_zipIdx_iff_getElem?.mpr h, rfl⟩, rfl⟩

theorem lt_width_of_mem_setPositions (h : p ∈ s.setPositions) : p < s.width :=
  (List.getElem?_eq_some_iff.mp (mem_setPositions.mp h)).1

theorem pairwise_setPositions (s : Bitstring) : s.setPositions.Pairwise (· < ·) := by
  have hall : (s.bits.zipIdx.map (·.2)).Pairwise (· < ·) := by
    rw [List.zipIdx_map_snd]
    exact List.pairwise_lt_range'
  exact hall.sublist (List.filter_sublist.map _)

theorem nodup_setPositions (s : Bitstring) : s.setPositions.Nodup :=
  s.pairwise_setPositions.imp Nat.ne_of_lt

theorem getElem?_setPositions (h : s.bits[p]? = some true) :
    s.setPositions[(s.bits.take p).count true]? = some p := by
  obtain ⟨hp, hset⟩ := List.getElem?_eq_some_iff.mp h
  have hsplit : s.bits = s.bits.take p ++ true :: s.bits.drop (p + 1) := by
    rw [← hset, ← List.drop_eq_getElem_cons hp, List.take_append_drop]
  have hlength : (s.bits.take p).length = p := List.length_take_of_le (Nat.le_of_lt hp)
  have hpositions : s.setPositions = setPositionsFrom 0 (s.bits.take p) ++
      p :: setPositionsFrom (p + 1) (s.bits.drop (p + 1)) := by
    rw [setPositions_eq, hsplit, setPositionsFrom_append, setPositionsFrom_cons_true, Nat.zero_add,
      ← hsplit, hlength]
  rw [hpositions, ← length_setPositionsFrom 0, List.getElem?_append_right (Nat.le_refl _),
    Nat.sub_self, List.getElem?_cons_zero]

/-- At each place stands the position of the set bit that has as many set bits to its left. -/
theorem getElem?_setPositions_eq_some_iff : s.setPositions[k]? = some p ↔ s.IsSetBit k p := by
  constructor
  · intro h
    have hset := mem_setPositions.mp (List.mem_of_getElem? h)
    have hk : k < s.setPositions.length := (List.getElem?_eq_some_iff.mp h).1
    have hplace := h.trans (getElem?_setPositions hset).symm
    exact ⟨hset, ((List.getElem?_inj hk s.nodup_setPositions).mp hplace).symm⟩
  · rintro ⟨hset, rfl⟩
    exact getElem?_setPositions hset

theorem exists_isSetBit (h : k < s.countOnes) : ∃ p, s.IsSetBit k p := by
  rw [← s.length_setPositions] at h
  exact ⟨_, getElem?_setPositions_eq_some_iff.mp (List.getElem?_eq_getElem h)⟩

/-- The width and the positions of the set bits fix a bitstring. -/
theorem eq_of_setPositions_eq (hwidth : s.width = t.width)
    (h : s.setPositions = t.setPositions) : s = t := by
  apply ext
  refine List.ext_getElem hwidth fun p hs ht => ?_
  have hset : s.bits[p]? = some true ↔ t.bits[p]? = some true := by
    rw [← mem_setPositions, ← mem_setPositions, h]
  rw [List.getElem?_eq_getElem hs, List.getElem?_eq_getElem ht, Option.some.injEq,
    Option.some.injEq] at hset
  exact Bool.eq_iff_iff.mpr hset

end Readout.Bitstring
