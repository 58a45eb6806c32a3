import Mathlib
import Readout.Decoder
import Readout.Proofs.Tiling

/-!
# Reading and writing ranges of bits

`readRange` is the number that a range of a list of bits reads as; `writeAll` writes numbers into
ranges one after the other. A bit that is written is the last one written there, so

* `readRange_writeAll`: ranges that share no position read back what was written into them;
* `writeAll_eq_of_read`: ranges that hold every position and are given what they read from a list
  rebuild that list, whatever stood there before.

`writeBits?` is the same writing bit by bit in a buffer that ends: it gives up at the first bit that
would fall outside (`writeBits?_eq_overwrite`).
-/

namespace Readout

/-! ## Reading -/

/-- The number that a range of a list of bits reads as. -/
def readRange (bits : List Bool) (r : BitRange) : Nat :=
  binaryValue ((bits.drop r.start).take r.width)

theorem length_take_drop {bits : List Bool} {r : BitRange}
    (h : r.start + r.width ≤ bits.length) : ((bits.drop r.start).take r.width).length = r.width := by
  rw [List.length_take, List.length_drop]
  omega

theorem readRange_lt {bits : List Bool} {r : BitRange} (h : r.start + r.width ≤ bits.length) :
    readRange bits r < 2 ^ r.width := by
  have hlt := binaryValue_lt ((bits.drop r.start).take r.width)
  rwa [length_take_drop h] at hlt

theorem binaryDigits_readRange {bits : List Bool} {r : BitRange}
    (h : r.start + r.width ≤ bits.length) :
    binaryDigits r.width (readRange bits r) = (bits.drop r.start).take r.width := by
  have hdigits := binaryDigits_binaryValue ((bits.drop r.start).take r.width)
  rwa [length_take_drop h] at hdigits

/-- The digits of what a range reads stand in the list at the positions of the range. -/
theorem getElem?_binaryDigits_readRange {bits : List Bool} {r : BitRange} {p : Nat}
    (h : r.start + r.width ≤ bits.length) (hp : r.Holds p) :
    (binaryDigits r.width (readRange bits r))[p - r.start]? = bits[p]? := by
  rw [BitRange.holds_iff] at hp
  rw [binaryDigits_readRange h, List.getElem?_take_of_lt (by omega), List.getElem?_drop]
  congr 1
  omega

theorem binaryValue_take_drop (bits : List Bool) (k : Nat) :
    binaryValue bits =
      2 ^ (bits.length - k) * binaryValue (bits.take k) + binaryValue (bits.drop k) := by
  have hsplit := binaryValue_append (bits.take k) (bits.drop k)
  rwa [List.take_append_drop, List.length_drop, Nat.mul_comm] at hsplit

theorem binaryValue_eq_sum (bits : List Bool) :
    binaryValue bits = ∑ k ∈ Finset.range bits.length,
      if bits[k]? = some true then 2 ^ (bits.length - 1 - k) else 0 := by
  induction bits with
  | nil => rfl
  | cons b bits ih =>
    have hrest : ∀ k, (if (b :: bits)[k + 1]? = some true
        then 2 ^ ((b :: bits).length - 1 - (k + 1)) else 0) =
        if bits[k]? = some true then 2 ^ (bits.length - 1 - k) else 0 := by
      intro k
      rw [List.getElem?_cons_succ, List.length_cons, Nat.add_sub_cancel, Nat.add_comm k 1,
        Nat.sub_add_eq]
    rw [binaryValue_cons, List.length_cons, Finset.sum_range_succ', ih, Nat.add_comm]
    congr 1
    · exact Finset.sum_congr rfl fun k _ => (hrest k).symm
    · cases b <;> simp

/-- The bits of a range that are set, each counted by its place in the range. -/
def placeSum (bits : List Bool) (r : BitRange) : Nat :=
  ∑ k ∈ Finset.range r.width,
    if bits[r.start + k]? = some true then 2 ^ (r.width - 1 - k) else 0

theorem readRange_eq_placeSum {bits : List Bool} {r : BitRange}
    (h : r.start + r.width ≤ bits.length) : readRange bits r = placeSum bits r := by
  rw [readRange, binaryValue_eq_sum, length_take_drop h, placeSum]
  refine Finset.sum_congr rfl fun k hk => ?_
  rw [List.getElem?_take_of_lt (Finset.mem_range.mp hk), List.getElem?_drop]

namespace Bitstring

theorem slice_eq_ok {s : Bitstring} {r : BitRange} (hfits : r.start + r.width ≤ s.width)
    (hnarrow : r.width < 64) : s.slice r = .ok (readRange s.bits r) := by
  have hstop := r.stop_le
  unfold slice
  rw [if_neg (by omega), if_neg (by omega)]
  rfl

theorem ofIndex_eq_ok_iff {value width : Nat} {s : Bitstring} :
    ofIndex value width = .ok s ↔ s.bits = binaryDigits width value ∧ value < 2 ^ width := by
  unfold ofIndex
  cases hbits : ofBits? (binaryDigits width value) with
  | none =>
    have hne : s.bits ≠ binaryDigits width value := fun h => by
      rw [ofBits?_eq_some_iff.mpr h] at hbits
      cases hbits
    simp [hne]
  | some t =>
    have ht := ofBits?_eq_some_iff.mp hbits
    by_cases hlt : value < 2 ^ width
    · simp only [hlt, if_true, Except.ok.injEq, and_true]
      rw [← ht]
      exact ⟨fun h => by rw [h], fun h => ext h.symm⟩
    · simp [hlt]

end Bitstring

/-! ## Writing into one range -/

@[simp] theorem length_overwrite (position : Nat) (new old : List Bool) :
    (overwrite position new old).length = old.length := by
  induction old generalizing position new with
  | nil => simp [overwrite]
  | cons b old ih =>
    cases position with
    | zero => cases new <;> simp [overwrite, ih]
    | succ position => simp [overwrite, ih]

theorem overwrite_nil (position : Nat) (old : List Bool) : overwrite position [] old = old := by
  induction old generalizing position with
  | nil => cases position <;> rfl
  | cons b old ih =>
    cases position with
    | zero => rfl
    | succ position => rw [overwrite, ih]

/-- What is written stands at its positions, and all else stays. -/
theorem getElem?_overwrite {position : Nat} {new old : List Bool}
    (h : position + new.length ≤ old.length) (p : Nat) :
    (overwrite position new old)[p]? =
      if position ≤ p ∧ p < position + new.length then new[p - position]? else old[p]? := by
  induction old generalizing position new p with
  | nil =>
    simp only [List.length_nil] at h
    rw [if_neg (by omega), overwrite]
  | cons b old ih =>
    simp only [List.length_cons] at h
    cases position with
    | zero =>
      cases new with
      | nil =>
        simp only [List.length_nil]
        rw [if_neg (by omega), overwrite_nil]
      | cons c new =>
        simp only [List.length_cons] at h
        rw [overwrite]
        cases p with
        | zero => simp
        | succ p =>
          rw [List.getElem?_cons_succ, ih (by omega) p]
          simp
    | succ position =>
      rw [overwrite]
      cases p with
      | zero => simp
      | succ p =>
        rw [List.getElem?_cons_succ, ih (by omega) p]
        simp only [Nat.succ_le_succ_iff, Nat.add_sub_add_right, List.getElem?_cons_succ]
        congr 1
        simp only [eq_iff_iff]
        omega

/-- Writing the digits of a number into a range. -/
theorem getElem?_overwrite_binaryDigits {bits : List Bool} {r : BitRange}
    (h : r.start + r.width ≤ bits.length) (n p : Nat) :
    (overwrite r.start (binaryDigits r.width n) bits)[p]? =
      if r.Holds p then (binaryDigits r.width n)[p - r.start]? else bits[p]? := by
  rw [getElem?_overwrite (by rw [length_binaryDigits]; exact h), length_binaryDigits]
  exact if_congr Iff.rfl rfl rfl

/-! ## Writing into many ranges -/

/-- Writes the digits of each number over its range, from the left. -/
def writeAll (bits : List Bool) (pairs : List (BitRange × Nat)) : List Bool :=
  pairs.foldl (fun bits e => overwrite e.1.start (binaryDigits e.1.width e.2) bits) bits

theorem writeAll_cons (bits : List Bool) (e : BitRange × Nat) (pairs : List (BitRange × Nat)) :
    writeAll bits (e :: pairs) =
      writeAll (overwrite e.1.start (binaryDigits e.1.width e.2) bits) pairs := rfl

@[simp] theorem length_writeAll (bits : List Bool) (pairs : List (BitRange × Nat)) :
    (writeAll bits pairs).length = bits.length := by
  induction pairs generalizing bits with
  | nil => rfl
  | cons e pairs ih => rw [writeAll_cons, ih, length_overwrite]

theorem getElem?_writeAll_of_not_holds {bits : List Bool} {pairs : List (BitRange × Nat)} {p : Nat}
    (hfits : ∀ e ∈ pairs, e.1.start + e.1.width ≤ bits.length)
    (h : ∀ e ∈ pairs, ¬ e.1.Holds p) : (writeAll bits pairs)[p]? = bits[p]? := by
  induction pairs generalizing bits with
  | nil => rfl
  | cons e pairs ih =>
    rw [writeAll_cons, ih (fun d hd => by rw [length_overwrite]; exact hfits d (.tail e hd))
      fun d hd => h d (.tail e hd),
      getElem?_overwrite_binaryDigits (hfits e List.mem_cons_self),
      if_neg (h e List.mem_cons_self)]

theorem readRange_eq_of_digits {bits : List Bool} {r : BitRange} {n : Nat} (hn : n < 2 ^ r.width)
    (h : ∀ p, r.Holds p → bits[p]? = (binaryDigits r.width n)[p - r.start]?) :
    readRange bits r = n := by
  have hslice : (bits.drop r.start).take r.width = binaryDigits r.width n := by
    apply List.ext_getElem?
    intro k
    by_cases hk : k < r.width
    · rw [List.getElem?_take_of_lt hk, List.getElem?_drop,
        h (r.start + k) ⟨Nat.le_add_right _ _, by omega⟩, Nat.add_sub_cancel_left]
    · rw [List.getElem?_eq_none (by rw [List.length_take]; omega),
        List.getElem?_eq_none (by rw [length_binaryDigits]; omega)]
  rw [readRange, hslice, binaryValue_binaryDigits, Nat.mod_eq_of_lt hn]

/-- Ranges that share no position read back what was written into them. -/
theorem readRange_writeAll {bits : List Bool} {pairs : List (BitRange × Nat)}
    (hfits : ∀ e ∈ pairs, e.1.start + e.1.width ≤ bits.length)
    (hdisjoint : pairs.Pairwise fun d e => ∀ p, d.1.Holds p → ¬ e.1.Holds p)
    (hlt : ∀ e ∈ pairs, e.2 < 2 ^ e.1.width) :
    ∀ e ∈ pairs, readRange (writeAll bits pairs) e.1 = e.2 := by
  induction pairs generalizing bits with
  | nil => exact fun e he => absurd he List.not_mem_nil
  | cons d pairs ih =>
    obtain ⟨hd, hdisjoint⟩ := List.pairwise_cons.mp hdisjoint
    have hfits' : ∀ e ∈ pairs, e.1.start + e.1.width ≤
        (overwrite d.1.start (binaryDigits d.1.width d.2) bits).length := fun e he => by
      rw [length_overwrite]
      exact hfits e (.tail d he)
    intro e he
    rw [writeAll_cons]
    rcases List.mem_cons.mp he with rfl | he
    · refine readRange_eq_of_digits (hlt e List.mem_cons_self) fun p hp => ?_
      -- the ranges written later leave these positions alone
      rw [getElem?_writeAll_of_not_holds hfits' fun d hd' => hd d hd' p hp,
        getElem?_overwrite_binaryDigits (hfits e List.mem_cons_self), if_pos hp]
    · exact ih hfits' hdisjoint (fun e he => hlt e (.tail d he)) e he

/-- Where every range is given what it reads from a list, the positions that are held become those
of the list. The ranges may overlap. -/
theorem getElem?_writeAll_of_read {target bits : List Bool} {pairs : List (BitRange × Nat)}
    (hlength : bits.length = target.length)
    (hfits : ∀ e ∈ pairs, e.1.start + e.1.width ≤ target.length)
    (hread : ∀ e ∈ pairs, e.2 = readRange target e.1) {p : Nat}
    (h : bits[p]? = target[p]? ∨ ∃ e ∈ pairs, e.1.Holds p) :
    (writeAll bits pairs)[p]? = target[p]? := by
  induction pairs generalizing bits with
  | nil =>
    rcases h with h | ⟨e, he, -⟩
    · exact h
    · exact absurd he List.not_mem_nil
  | cons d pairs ih =>
    have hd : d.1.start + d.1.width ≤ bits.length := by
      rw [hlength]
      exact hfits d List.mem_cons_self
    rw [writeAll_cons]
    refine ih (by rw [length_overwrite]; exact hlength) (fun e he => hfits e (.tail d he))
      (fun e he => hread e (.tail d he)) ?_
    rw [getElem?_overwrite_binaryDigits hd]
    by_cases hp : d.1.Holds p
    · left
      rw [if_pos hp, hread d List.mem_cons_self,
        getElem?_binaryDigits_readRange (hfits d List.mem_cons_self) hp]
    · rw [if_neg hp]
      rcases h with h | ⟨e, he, hold⟩
      · exact .inl h
      · rcases List.mem_cons.mp he with rfl | he
        · exact absurd hold hp
        · exact .inr ⟨e, he, hold⟩

theorem writeAll_eq_of_read {target bits : List Bool} {pairs : List (BitRange × Nat)}
    (hlength : bits.length = target.length)
    (hfits : ∀ e ∈ pairs, e.1.start + e.1.width ≤ target.length)
    (hread : ∀ e ∈ pairs, e.2 = readRange target e.1)
    (hcovers : ∀ p < target.length, ∃ e ∈ pairs, e.1.Holds p) : writeAll bits pairs = target := by
  apply List.ext_getElem?
  intro p
  by_cases hp : p < target.length
  · exact getElem?_writeAll_of_read hlength hfits hread (.inr (hcovers p hp))
  · rw [List.getElem?_eq_none (by rw [length_writeAll]; omega),
      List.getElem?_eq_none (by omega)]

/-! ## Writing in a buffer that ends -/

/-- Writes bits one by one from a position on; `none` as soon as one falls outside the buffer. -/
def writeBits? : (position : Nat) → (new buffer : List Bool) → Option (List Bool)
  | _, [], buffer => some buffer
  | position, b :: new, buffer =>
    if position < buffer.length then writeBits? (position + 1) new (buffer.set position b)
    else none

theorem overwrite_cons {position : Nat} {b : Bool} {new old : List Bool}
    (h : position < old.length) :
    overwrite position (b :: new) old = overwrite (position + 1) new (old.set position b) := by
  induction old generalizing position with
  | nil => cases h
  | cons c old ih =>
    cases position with
    | zero => rfl
    | succ position =>
      rw [overwrite, ih (Nat.lt_of_succ_lt_succ h), List.set_cons_succ, overwrite]

theorem writeBits?_eq_overwrite {position : Nat} {new buffer : List Bool}
    (h : position + new.length ≤ buffer.length) :
    writeBits? position new buffer = some (overwrite position new buffer) := by
  induction new generalizing position buffer with
  | nil => rw [overwrite_nil, writeBits?]
  | cons b new ih =>
    rw [List.length_cons] at h
    rw [writeBits?, if_pos (by omega), ih (by rw [List.length_set]; omega),
      overwrite_cons (by omega)]

end Readout
