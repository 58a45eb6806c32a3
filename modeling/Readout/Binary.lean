import Readout.Naturals

/-!
# Binary notation

Numbers as lists of bits, the most significant first. A width and a number below `2 ^ width` fix the
bits, and the bits fix the number.

* `binaryValue_append`: the value of two runs of bits side by side.
* `binaryValue_binaryDigits`: writing in `width` bits keeps a number modulo `2 ^ width`.
* `binaryDigits_binaryValue`: a list of bits is what its value is written as.
-/

namespace Readout

/-- The binary value of a list of bits, the first one most significant. -/
def binaryValue (bits : List Bool) : Nat := bits.foldl (fun n b => 2 * n + b.toNat) 0

/-- The last `width` binary digits of a number, the most significant first. -/
def binaryDigits : (width : Nat) → Nat → List Bool
  | 0, _ => []
  | width + 1, n => n.testBit width :: binaryDigits width n

@[simp] theorem length_binaryDigits (width n : Nat) : (binaryDigits width n).length = width := by
  induction width with
  | zero => rfl
  | succ width ih => simp [binaryDigits, ih]

@[simp] theorem binaryValue_nil : binaryValue [] = 0 := rfl

theorem foldl_binary (start : Nat) (bits : List Bool) :
    bits.foldl (fun n b => 2 * n + b.toNat) start = start * 2 ^ bits.length + binaryValue bits := by
  induction bits generalizing start with
  | nil => simp
  | cons b bits ih =>
    unfold binaryValue
    simp only [List.foldl_cons, List.length_cons]
    rw [ih (2 * start + b.toNat), ih (2 * 0 + b.toNat), Nat.pow_succ, Nat.add_mul]
    have h : 2 * start * 2 ^ bits.length = start * (2 ^ bits.length * 2) := by
      rw [Nat.mul_comm 2 start, Nat.mul_assoc, Nat.mul_comm 2]
    simp only [h, Nat.mul_zero, Nat.zero_add]
    omega

theorem binaryValue_append (b c : List Bool) :
    binaryValue (b ++ c) = binaryValue b * 2 ^ c.length + binaryValue c := by
  rw [binaryValue, List.foldl_append]
  exact foldl_binary (binaryValue b) c

theorem binaryValue_cons (b : Bool) (bits : List Bool) :
    binaryValue (b :: bits) = b.toNat * 2 ^ bits.length + binaryValue bits := by
  have h := binaryValue_append [b] bits
  simpa [binaryValue] using h

theorem binaryValue_lt (bits : List Bool) : binaryValue bits < 2 ^ bits.length := by
  induction bits with
  | nil => decide
  | cons b bits ih =>
    rw [binaryValue_cons, List.length_cons, Nat.pow_succ]
    cases b <;> simp <;> omega

theorem binaryValue_binaryDigits (width n : Nat) :
    binaryValue (binaryDigits width n) = n % 2 ^ width := by
  induction width with
  | zero => simp [binaryDigits, Nat.mod_one]
  | succ width ih =>
    rw [binaryDigits, binaryValue_cons, length_binaryDigits, ih, Nat.toNat_testBit,
      Nat.mod_pow_succ, Nat.mul_comm, Nat.add_comm]

/-- Digits below a power of two do not see its multiples. -/
theorem binaryDigits_mul_add {width exponent : Nat} (h : width ≤ exponent) (k : Nat) {n : Nat}
    (hn : n < 2 ^ exponent) : binaryDigits width (k * 2 ^ exponent + n) = binaryDigits width n := by
  induction width with
  | zero => rfl
  | succ width ih =>
    rw [binaryDigits, binaryDigits, ih (by omega), Nat.mul_comm, Nat.testBit_two_pow_mul_add _ hn,
      if_pos (by omega)]

theorem binaryDigits_binaryValue (bits : List Bool) :
    binaryDigits bits.length (binaryValue bits) = bits := by
  induction bits with
  | nil => rfl
  | cons b bits ih =>
    have hlt := binaryValue_lt bits
    rw [binaryValue_cons, List.length_cons, binaryDigits,
      binaryDigits_mul_add (Nat.le_refl _) _ hlt, ih, Nat.mul_comm,
      Nat.testBit_two_pow_mul_add _ hlt, if_neg (Nat.lt_irrefl _)]
    cases b <;> simp

end Readout
