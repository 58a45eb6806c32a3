import Readout.Proofs.BitSlices

/-!
# Slices by division

What a range reads is the binary value without the places behind the range and without those before
it (`readRange_eq_div_mod`), so two ranges side by side read the two parts of one number
(`readRange_side_by_side`). A word that takes in the bits one by one loses what is shifted out at
its top and keeps the value modulo `2 ^ 64` (`gatherWord_eq_ofNat`). As a slice is refused from 64
bits on, nothing is lost in one.
-/

namespace Readout

/-! ## Ranges as quotients -/

theorem binaryValue_drop_lt (bits : List Bool) (k : Nat) :
    binaryValue (bits.drop k) < 2 ^ (bits.length - k) := by
  have hlt := binaryValue_lt (bits.drop k)
  rwa [List.length_drop] at hlt

/-- The first bits are a quotient. -/
theorem binaryValue_take (bits : List Bool) (k : Nat) :
    binaryValue (bits.take k) = binaryValue bits / 2 ^ (bits.length - k) := by
  rw [binaryValue_take_drop bits k, Nat.mul_add_div (Nat.two_pow_pos _),
    Nat.div_eq_of_lt (binaryValue_drop_lt bits k), Nat.add_zero]

/-- The other bits are its remainder. -/
theorem binaryValue_drop_eq_mod (bits : List Bool) (k : Nat) :
    binaryValue (bits.drop k) = binaryValue bits % 2 ^ (bits.length - k) := by
  rw [binaryValue_take_drop bits k, Nat.mul_add_mod,
    Nat.mod_eq_of_lt (binaryValue_drop_lt bits k)]

theorem readRange_eq_div_mod {bits : List Bool} {r : BitRange}
    (h : r.start + r.width ≤ bits.length) :
    readRange bits r =
      binaryValue bits / 2 ^ (bits.length - r.start - r.width) % 2 ^ r.width := by
  have hplaces : 2 ^ (bits.length - r.start) =
      2 ^ (bits.length - r.start - r.width) * 2 ^ r.width := by
    rw [← Nat.pow_add]
    congr 1
    omega
  rw [readRange, binaryValue_take, binaryValue_drop_eq_mod, List.length_drop, hplaces,
    Nat.mod_mul_right_div_self]

theorem readRange_side_by_side {bits : List Bool} {start first second : Nat}
    (h : start + first + second ≤ bits.length) :
    readRange bits ⟨start, first + second⟩ =
      readRange bits ⟨start, first⟩ * 2 ^ second + readRange bits ⟨start + first, second⟩ := by
  have hsplit : (bits.drop start).take (first + second) =
      (bits.drop start).take first ++ (bits.drop (start + first)).take second := by
    rw [List.take_add, List.drop_drop]
  have hlength : ((bits.drop (start + first)).take second).length = second :=
    length_take_drop (r := ⟨start + first, second⟩) h
  show binaryValue ((bits.drop start).take (first + second)) = _
  rw [hsplit, binaryValue_append, hlength]
  rfl

/-! ## Bits gathered in a word -/

/-- The word that bits leave when each is shifted in from the right. What is shifted out at the left
is lost. -/
def gatherWord (bits : List Bool) : UInt64 :=
  bits.foldl (fun word b => (word <<< 1) ||| b.toUInt64) 0

theorem shiftIn_ofNat (n : Nat) (b : Bool) :
    (UInt64.ofNat n <<< 1) ||| b.toUInt64 = UInt64.ofNat (2 * n + b.toNat) := by
  have hbit : b.toUInt64 = UInt64.ofNat b.toNat := by
    cases b <;> rfl
  have hlt : b.toNat < 2 ^ 1 := Bool.toNat_lt b
  calc (UInt64.ofNat n <<< 1) ||| b.toUInt64
      = UInt64.ofNat (n <<< 1) ||| UInt64.ofNat b.toNat := by
        rw [hbit, UInt64.ofNat_shiftLeft n 1 (by decide)]
        rfl
    _ = UInt64.ofNat (n <<< 1 + b.toNat) := by
        rw [← UInt64.ofNat_or, Nat.shiftLeft_add_eq_or_of_lt hlt]
    _ = UInt64.ofNat (2 * n + b.toNat) := by
        rw [Nat.shiftLeft_eq, Nat.pow_one, Nat.mul_comm]

theorem gatherWord_eq_ofNat (bits : List Bool) :
    gatherWord bits = UInt64.ofNat (binaryValue bits) :=
  List.foldl_hom UInt64.ofNat shiftIn_ofNat

theorem toNat_gatherWord {bits : List Bool} (h : bits.length ≤ 64) :
    (gatherWord bits).toNat = binaryValue bits := by
  have hlt : binaryValue bits < 2 ^ 64 :=
    Nat.lt_of_lt_of_le (binaryValue_lt bits) (Nat.pow_le_pow_right Nat.two_pos h)
  rw [gatherWord_eq_ofNat, UInt64.toNat_ofNat', Nat.mod_eq_of_lt hlt]

/-! ## What slices are refused, and what the others read -/

namespace Bitstring

variable {s : Bitstring} {r : BitRange}

theorem slice_eq_widthMismatch_iff (hs : s.width < maxWord) :
    s.slice r = .error (.widthMismatch (min (r.start + r.width) maxWord) s.width) ↔
      s.width < r.start + r.width := by
  have hstop : s.width < r.stop ↔ s.width < r.start + r.width := by
    rw [BitRange.stop, saturate, Nat.lt_min]
    omega
  rw [← hstop, slice]
  split
  · rename_i h
    exact iff_of_true rfl h
  · rename_i h
    split <;> simp [h]

theorem slice_eq_rangeTooWide_iff (h : r.start + r.width ≤ s.width) :
    s.slice r = .error (.invalidBinding (.rangeTooWide r)) ↔ 64 ≤ r.width := by
  have hstop := r.stop_le
  rw [slice, if_neg (by omega)]
  split
  · rename_i hwide
    exact iff_of_true rfl hwide
  · rename_i hnarrow
    simp [hnarrow]

theorem slice_eq_div_mod (h : r.start + r.width ≤ s.width) (hnarrow : r.width < 64) :
    s.slice r = .ok (s.toNat / 2 ^ (s.width - r.start - r.width) % 2 ^ r.width) := by
  rw [slice_eq_ok h hnarrow, readRange_eq_div_mod h]
  rfl

theorem exists_slice_side_by_side {start first second : Nat}
    (h : start + first + second ≤ s.width) (hnarrow : first + second ≤ 63) :
    ∃ high low, s.slice ⟨start, first⟩ = .ok high ∧ s.slice ⟨start + first, second⟩ = .ok low ∧
      s.slice ⟨start, first + second⟩ = .ok (high * 2 ^ second + low) := by
  refine ⟨readRange s.bits ⟨start, first⟩, readRange s.bits ⟨start + first, second⟩, ?_, ?_, ?_⟩
  · apply slice_eq_ok
    · show start + first ≤ s.width
      omega
    · show first < 64
      omega
  · apply slice_eq_ok
    · exact h
    · show second < 64
      omega
  · rw [← readRange_side_by_side h]
    apply slice_eq_ok
    · show start + (first + second) ≤ s.width
      omega
    · show first + second < 64
      omega

/-- **A slice is a quotient of the value.** A range beyond the end is refused by its end, held at
the largest word; one that is too wide for a word is refused by its width. Any other reads the
value divided by the places behind it, modulo those of its own, which the bits gathered in a word
leave as well. Two slices side by side are one number. -/
theorem slice_reads_quotient (s : Bitstring) (hs : s.width < maxWord) :
    (∀ r, s.slice r = .error (.widthMismatch (min (r.start + r.width) maxWord) s.width) ↔
      s.width < r.start + r.width) ∧
    (∀ r, r.start + r.width ≤ s.width →
      (s.slice r = .error (.invalidBinding (.rangeTooWide r)) ↔ 64 ≤ r.width)) ∧
    (∀ r, r.start + r.width ≤ s.width → r.width < 64 →
      s.slice r = .ok (s.toNat / 2 ^ (s.width - r.start - r.width) % 2 ^ r.width) ∧
      s.slice r = .ok (gatherWord ((s.bits.drop r.start).take r.width)).toNat) ∧
    ∀ start first second, start + first + second ≤ s.width → first + second ≤ 63 →
      ∃ high low, s.slice ⟨start, first⟩ = .ok high ∧ s.slice ⟨start + first, second⟩ = .ok low ∧
        s.slice ⟨start, first + second⟩ = .ok (high * 2 ^ second + low) := by
  refine ⟨fun r => slice_eq_widthMismatch_iff hs, fun r h => slice_eq_rangeTooWide_iff h,
    fun r h hnarrow => ⟨slice_eq_div_mod h hnarrow, ?_⟩,
    fun start first second h hnarrow => exists_slice_side_by_side h hnarrow⟩
  have hlength : ((s.bits.drop r.start).take r.width).length ≤ 64 := by
    rw [length_take_drop h]
    omega
  rw [slice_eq_ok h hnarrow, toNat_gatherWord hlength]
  rfl

/-- Seventy ones and then 01. -/
def longBits : Bitstring := ⟨List.replicate 70 true ++ [false, true], by simp⟩

/-- Far beyond a word the last four bits read thirteen, from the start 64 bits are too many, and
behind the end there is nothing to read, however far a range reaches. -/
theorem longBits_slices :
    longBits.width < maxWord ∧ longBits.slice ⟨68, 4⟩ = .ok 13 ∧
      longBits.slice ⟨0, 64⟩ = .error (.invalidBinding (.rangeTooWide ⟨0, 64⟩)) ∧
      longBits.slice ⟨72, maxWord⟩ = .error (.widthMismatch maxWord 72) := by
  have hwidth : longBits.width < maxWord := by decide
  obtain ⟨hbeyond, hwide, hread, -⟩ := slice_reads_quotient longBits hwidth
  refine ⟨hwidth, ?_, (hwide ⟨0, 64⟩ (by decide)).mpr (by decide),
    (hbeyond ⟨72, maxWord⟩).mpr (by decide)⟩
  exact (hread ⟨68, 4⟩ (by decide) (by decide)).1.trans (congrArg Except.ok (by decide +kernel))

end Bitstring

end Readout
