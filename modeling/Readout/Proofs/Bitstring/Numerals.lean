import Readout.Proofs.Bitstring.Slices
import Readout.Proofs.Bitstring.Texts
import Readout.Proofs.Lists

/-!
# Bitstrings and numbers

A number is written in a width as its fewest binary digits with zeros in front
(`map_charOfBit_binaryDigits`), and in every width that it fits into (`exists_ofIndex_iff`). In a
word this is told by a shift, guarded where the width is that of a word or more
(`lt_two_pow_iff_shiftRight`). Back from a bitstring there is less room: its value is read where it
has fewer than 64 bits (`toIndex_eq_ok`, `toIndex_eq_error`), and there both ways are inverse.
-/

namespace Readout

/-! ## Digits with zeros in front -/

theorem binaryDigits_succ (width n : Nat) :
    binaryDigits (width + 1) n = binaryDigits width (n / 2) ++ [n.testBit 0] := by
  induction width with
  | zero => rfl
  | succ width ih =>
    rw [binaryDigits, ih, binaryDigits, Nat.testBit_succ, List.cons_append]

theorem charOfBit_testBit_zero (n : Nat) :
    Bitstring.charOfBit (n.testBit 0) = (n % 2).digitChar := by
  rcases Nat.mod_two_eq_zero_or_one n with h | h <;> simp [Bitstring.charOfBit, h]

theorem map_charOfBit_binaryDigits {width n : Nat} (h : n < 2 ^ (width + 1)) :
    (binaryDigits (width + 1) n).map Bitstring.charOfBit =
      (Nat.toDigits 2 n).leftpad (width + 1) '0' := by
  induction width generalizing n with
  | zero =>
    have hn : n < 2 := h
    rw [Nat.toDigits_of_lt_base hn, leftpad_singleton, binaryDigits_succ, List.map_append,
      List.map_singleton, charOfBit_testBit_zero, Nat.mod_eq_of_lt hn]
    rfl
  | succ width ih =>
    have hhalf : n / 2 < 2 ^ (width + 1) := by
      rw [Nat.pow_succ] at h
      omega
    rw [binaryDigits_succ, List.map_append, ih hhalf, List.map_singleton, charOfBit_testBit_zero]
    by_cases hn : n < 2
    · -- the digit of zero is one of the zeros in front
      have hzero : n / 2 = 0 := by omega
      rw [hzero, Nat.toDigits_of_lt_base hn, Nat.toDigits_of_lt_base Nat.two_pos, leftpad_singleton,
        leftpad_singleton, List.replicate_succ', Nat.mod_eq_of_lt hn]
      rfl
    · rw [Nat.toDigits_of_base_le (n := n) (by decide) (by omega), leftpad_concat]

/-! ## Numbers that fit -/

theorem lt_two_pow_iff_shiftRight {value width : Nat} (hvalue : value ≤ maxWord) :
    value < 2 ^ width ↔ (width < 64 → value >>> width = 0) := by
  rw [Nat.shiftRight_eq_div_pow, Nat.div_eq_zero_iff_lt (Nat.two_pow_pos width)]
  constructor
  · intro h _
    exact h
  · intro h
    by_cases hwidth : width < 64
    · exact h hwidth
    · have hpow : 2 ^ 64 ≤ 2 ^ width := Nat.pow_le_pow_right Nat.two_pos (by omega)
      unfold maxWord at hvalue
      omega

namespace Bitstring

variable {s : Bitstring} {value width : Nat}

theorem exists_ofIndex_iff :
    (∃ s, ofIndex value width = .ok s) ↔ 1 ≤ width ∧ value < 2 ^ width := by
  constructor
  · rintro ⟨s, h⟩
    obtain ⟨hbits, hlt⟩ := ofIndex_eq_ok_iff.mp h
    have hpos := s.width_pos
    rw [Bitstring.width, hbits, length_binaryDigits] at hpos
    exact ⟨hpos, hlt⟩
  · rintro ⟨hwidth, hlt⟩
    have hne : binaryDigits width value ≠ [] := by
      intro hnil
      have hlength := length_binaryDigits width value
      rw [hnil, List.length_nil] at hlength
      omega
    exact ⟨⟨_, hne⟩, ofIndex_eq_ok_iff.mpr ⟨rfl, hlt⟩⟩

theorem width_of_ofIndex (h : ofIndex value width = .ok s) : s.width = width := by
  rw [Bitstring.width, (ofIndex_eq_ok_iff.mp h).1, length_binaryDigits]

theorem toNat_of_ofIndex (h : ofIndex value width = .ok s) : s.toNat = value := by
  obtain ⟨hbits, hlt⟩ := ofIndex_eq_ok_iff.mp h
  rw [toNat, hbits, binaryValue_binaryDigits, Nat.mod_eq_of_lt hlt]

/-- What is written is the number in binary, with zeros in front up to the width. -/
theorem toList_text_of_ofIndex (h : ofIndex value width = .ok s) :
    s.text.toList = (Nat.toDigits 2 value).leftpad width '0' := by
  obtain ⟨hbits, hlt⟩ := ofIndex_eq_ok_iff.mp h
  obtain ⟨hwidth, -⟩ := exists_ofIndex_iff.mp ⟨s, h⟩
  obtain ⟨k, rfl⟩ := Nat.exists_eq_add_of_le' hwidth
  rw [toList_text, hbits, map_charOfBit_binaryDigits hlt]

theorem ofIndex_toNat (s : Bitstring) : ofIndex s.toNat s.width = .ok s :=
  ofIndex_eq_ok_iff.mpr ⟨(binaryDigits_binaryValue s.bits).symm, s.toNat_lt⟩

/-! ## Numbers that are read -/

theorem toIndex_eq_ok (h : s.width ≤ 63) : s.toIndex = .ok s.toNat := by
  have hall : readRange s.bits ⟨0, s.width⟩ = s.toNat := by
    show binaryValue (s.bits.take s.bits.length) = binaryValue s.bits
    rw [List.take_length]
  rw [toIndex, ← hall]
  apply slice_eq_ok
  · show 0 + s.width ≤ s.width
    omega
  · show s.width < 64
    omega

theorem toIndex_eq_error (h : 64 ≤ s.width) :
    s.toIndex = .error (.invalidBinding (.rangeTooWide ⟨0, s.width⟩)) := by
  apply (slice_eq_rangeTooWide_iff _).mpr h
  show 0 + s.width ≤ s.width
  omega

theorem exists_toIndex_iff : (∃ n, s.toIndex = .ok n) ↔ s.width ≤ 63 := by
  constructor
  · rintro ⟨n, h⟩
    by_contra hwidth
    rw [toIndex_eq_error (by omega)] at h
    cases h
  · intro h
    exact ⟨s.toNat, toIndex_eq_ok h⟩

/-- **Writing and reading numbers.** A number is written in each width from one on that it fits
into, so a word in every width from 64 on; the shift that guards a word finds just these. What is
written has that many characters, all of them zeros and ones, and the number as its value: it is the
number in binary with zeros in front. A bitstring is read as a number if it has at most 63 bits. Up
to there a number that is written is read back, and one that is read is written back. -/
theorem ofIndex_toIndex_inverse :
    (∀ value width, (∃ s, ofIndex value width = .ok s) ↔ 1 ≤ width ∧ value < 2 ^ width) ∧
    (∀ value ≤ maxWord, ∀ width,
      (64 ≤ width → ∃ s, ofIndex value width = .ok s) ∧
      (1 ≤ width →
        ((∃ s, ofIndex value width = .ok s) ↔ (width < 64 → value >>> width = 0)))) ∧
    (∀ value width s, ofIndex value width = .ok s →
      s.text.length = width ∧ (∀ c ∈ s.text.toList, c = '0' ∨ c = '1') ∧ s.toNat = value ∧
      s.text.toList = (Nat.toDigits 2 value).leftpad width '0') ∧
    (∀ s : Bitstring, (∃ n, s.toIndex = .ok n) ↔ s.width ≤ 63) ∧
    (∀ value width, 1 ≤ width → width ≤ 63 → value < 2 ^ width →
      ∃ s, ofIndex value width = .ok s ∧ s.toIndex = .ok value) ∧
    ∀ s : Bitstring, s.width ≤ 63 → ∃ n, s.toIndex = .ok n ∧ ofIndex n s.width = .ok s := by
  refine ⟨fun value width => exists_ofIndex_iff, ?_, ?_, fun s => exists_toIndex_iff, ?_, ?_⟩
  · intro value hvalue width
    rw [exists_ofIndex_iff, lt_two_pow_iff_shiftRight hvalue]
    constructor
    · intro hwidth
      exact ⟨by omega, fun h => absurd h (by omega)⟩
    · intro hwidth
      simp only [hwidth, true_and]
  · intro value width s h
    refine ⟨?_, (exists_text_eq_iff.mp ⟨s, rfl⟩).2, toNat_of_ofIndex h, toList_text_of_ofIndex h⟩
    rw [length_text, width_of_ofIndex h]
  · intro value width hpos hwidth hlt
    obtain ⟨s, hs⟩ := exists_ofIndex_iff.mpr ⟨hpos, hlt⟩
    refine ⟨s, hs, ?_⟩
    rw [toIndex_eq_ok (by rw [width_of_ofIndex hs]; exact hwidth), toNat_of_ofIndex hs]
  · intro s hwidth
    exact ⟨s.toNat, toIndex_eq_ok hwidth, s.ofIndex_toNat⟩

end Bitstring

end Readout
