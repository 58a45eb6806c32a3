import Mathlib
import Readout.Proofs.Decoder.Decoding

/-!
# Banks side by side

`Decoder.ofBanks` lays its fields out from one end of the bitstring or from the other. From the
right, the fields are those of the reversed banks from the left, in reversed order
(`fieldsFrom_lowToHigh`), so that it is enough to look from the left. There the fields tile the bits
one behind the other (`coverCount_fieldsFrom`), and what they read are the digits of the binary value
in the mixed radix of the banks (`binaryValue_drop_eq_sum`).
-/

namespace Readout

/-- The number of bits that banks need together. -/
def bitsOf (banks : List WordBank) : Nat := (banks.map (·.indexBits)).sum

variable {banks : List WordBank}

@[simp] theorem bitsOf_nil : bitsOf [] = 0 := rfl

@[simp] theorem bitsOf_cons (bank : WordBank) (banks : List WordBank) :
    bitsOf (bank :: banks) = bank.indexBits + bitsOf banks := rfl

@[simp] theorem bitsOf_reverse (banks : List WordBank) : bitsOf banks.reverse = bitsOf banks := by
  rw [bitsOf, List.map_reverse, List.sum_reverse, bitsOf]

theorem bitsOf_pos (h : banks ≠ []) : 0 < bitsOf banks := by
  obtain ⟨bank, rest, rfl⟩ := List.exists_cons_of_ne_nil h
  have hpos := bank.indexBits_pos
  rw [bitsOf_cons]
  omega

/-! ## The digits of a number -/

/-- The exponent of the power of two that a digit counts: the bits of the banks that are read at
lower places. -/
def BitOrder.place (order : BitOrder) (banks : List WordBank) (i : Nat) : Nat :=
  match order with
  | .highToLow => bitsOf (banks.drop (i + 1))
  | .lowToHigh => bitsOf (banks.take i)

/-- The digits of a number in the mixed radix of the banks, one for each bank and below its size. -/
structure IsDigits (order : BitOrder) (banks : List WordBank) (v : List Nat) (n : Nat) : Prop where
  length_eq : v.length = banks.length
  digit_lt : ∀ (i : Nat) bank digit, banks[i]? = some bank → v[i]? = some digit →
    digit < 2 ^ bank.indexBits
  value_eq : n = ∑ i ∈ Finset.range banks.length, v.getD i 0 * 2 ^ order.place banks i

theorem BitOrder.place_reverse {i : Nat} (h : i < banks.length) :
    lowToHigh.place banks i = highToLow.place banks.reverse (banks.length - 1 - i) := by
  show bitsOf (banks.take i) = bitsOf (banks.reverse.drop (banks.length - 1 - i + 1))
  have hdrop : banks.length - (banks.length - 1 - i + 1) = i := by omega
  rw [List.drop_reverse, hdrop, bitsOf_reverse]

/-- Digits of the reversed banks from the left are those of the banks from the right. -/
theorem IsDigits.reverse {v : List Nat} {n : Nat} (h : IsDigits .highToLow banks.reverse v n) :
    IsDigits .lowToHigh banks v.reverse n := by
  have hlength : v.length = banks.length := by rw [h.length_eq, List.length_reverse]
  refine ⟨by rw [List.length_reverse, hlength], ?_, ?_⟩
  · intro i bank digit hbank hdigit
    obtain ⟨hi, -⟩ := List.getElem?_eq_some_iff.mp hbank
    rw [List.getElem?_reverse (by omega), hlength] at hdigit
    refine h.digit_lt (banks.length - 1 - i) bank digit ?_ hdigit
    rw [List.getElem?_reverse (by omega), ← hbank]
    congr 1
    omega
  · rw [h.value_eq, List.length_reverse, ← Finset.sum_range_reflect]
    refine Finset.sum_congr rfl fun i hi => ?_
    have hi : i < banks.length := Finset.mem_range.mp hi
    rw [BitOrder.place_reverse hi, List.getD_eq_getElem?_getD, List.getD_eq_getElem?_getD,
      List.getElem?_reverse (by omega), hlength]

namespace Decoder

/-! ## Fields from the left and from the right -/

variable {order : BitOrder} {width offset : Nat}

theorem map_bank_fieldsFrom (order : BitOrder) (width offset : Nat) (banks : List WordBank) :
    (fieldsFrom order width offset banks).map (·.bank) = banks := by
  induction banks generalizing offset with
  | nil => rfl
  | cons bank rest ih => exact congrArg (bank :: ·) (ih _)

theorem width_of_mem_fieldsFrom {f : Field} (h : f ∈ fieldsFrom order width offset banks) :
    f.range.width = f.bank.indexBits := by
  induction banks generalizing offset with
  | nil => cases h
  | cons bank rest ih =>
    rcases List.mem_cons.mp h with rfl | h
    · rfl
    · exact ih h

theorem fieldsFrom_highToLow_concat (banks : List WordBank) (bank : WordBank) :
    fieldsFrom .highToLow width offset (banks ++ [bank]) =
      fieldsFrom .highToLow width offset banks ++
        [⟨⟨offset + bitsOf banks, bank.indexBits⟩, bank⟩] := by
  induction banks generalizing offset with
  | nil => rfl
  | cons first rest ih =>
    rw [List.cons_append, fieldsFrom, ih, bitsOf_cons, Nat.add_assoc]
    rfl

theorem fieldsFrom_lowToHigh (h : offset + bitsOf banks ≤ width) :
    fieldsFrom .lowToHigh width offset banks =
      (fieldsFrom .highToLow width (width - offset - bitsOf banks) banks.reverse).reverse := by
  induction banks generalizing offset with
  | nil => rfl
  | cons bank rest ih =>
    rw [bitsOf_cons] at h
    have hrest : width - offset - (bank.indexBits + bitsOf rest) =
        width - (offset + bank.indexBits) - bitsOf rest := by omega
    have hstart : width - (offset + bank.indexBits) - bitsOf rest + bitsOf rest =
        width - offset - bank.indexBits := by omega
    rw [fieldsFrom, ih (by omega), List.reverse_cons, fieldsFrom_highToLow_concat,
      List.reverse_concat, bitsOf_cons, hrest, bitsOf_reverse, hstart]

/-! ## Fields that tile -/

theorem coverCount_fieldsFrom (p : Nat) :
    coverCount ((fieldsFrom .highToLow width offset banks).map (·.range)) p =
      if offset ≤ p ∧ p < offset + bitsOf banks then 1 else 0 := by
  induction banks generalizing offset with
  | nil =>
    rw [bitsOf_nil, if_neg (by omega)]
    rfl
  | cons bank rest ih =>
    rw [fieldsFrom, List.map_cons, coverCount_cons, ih, bitsOf_cons]
    simp only [BitRange.holds_iff]
    split_ifs <;> omega

theorem tiles_fieldsFrom (order : BitOrder) (banks : List WordBank) :
    Tiles (bitsOf banks) ((fieldsFrom order (bitsOf banks) 0 banks).map (·.range)) := by
  rw [tiles_iff_coverCount]
  intro p
  cases order with
  | highToLow =>
    rw [coverCount_fieldsFrom]
    simp
  | lowToHigh =>
    rw [fieldsFrom_lowToHigh (by omega), List.map_reverse,
      coverCount_perm (List.reverse_perm _), coverCount_fieldsFrom]
    simp

theorem exists_ofBanks (order : BitOrder) (hne : banks ≠ []) (hwidth : bitsOf banks < maxWord) :
    ∃ d, ofBanks order banks = .ok d := by
  have hcovers : checkCoverage (bitsOf banks)
      ((fieldsFrom order (bitsOf banks) 0 banks).map (·.range)) = .ok () := by
    refine (checkCoverage_eq_ok_iff hwidth).mpr
      ⟨bitsOf_pos hne, fun r hr => ?_, tiles_fieldsFrom order banks⟩
    obtain ⟨f, hf, rfl⟩ := List.mem_map.mp hr
    rw [width_of_mem_fieldsFrom hf]
    exact f.bank.indexBits_pos
  exact ⟨_, ofFields_eq_ok (fun f hf => width_of_mem_fieldsFrom hf) hcovers⟩

theorem ofBanks_nil (order : BitOrder) : ofBanks order [] = .error (.invalidBinding .noWidth) := rfl

section OfBanks

variable {d d' : Decoder} {s : Bitstring}

theorem width_of_ofBanks (h : ofBanks order banks = .ok d) : d.width = bitsOf banks :=
  (ofFields_eq_ok_iff.mp h).1

theorem fields_of_ofBanks (h : ofBanks order banks = .ok d) :
    d.fields = fieldsFrom order (bitsOf banks) 0 banks :=
  (ofFields_eq_ok_iff.mp h).2

theorem map_bank_of_ofBanks (h : ofBanks order banks = .ok d) : d.fields.map (·.bank) = banks := by
  rw [fields_of_ofBanks h, map_bank_fieldsFrom]

theorem size_le_of_ofBanks (h : ofBanks order banks = .ok d)
    (hbanks : ∀ bank ∈ banks, bank.size ≤ maxWord) : ∀ f ∈ d.fields, f.bank.size ≤ maxWord := by
  intro f hf
  apply hbanks
  rw [← map_bank_of_ofBanks h]
  exact List.mem_map_of_mem hf

/-! ## What the fields read -/

theorem binaryValue_drop (bits : List Bool) (offset width : Nat) :
    binaryValue (bits.drop offset) = readRange bits ⟨offset, width⟩ *
      2 ^ (bits.length - (offset + width)) + binaryValue (bits.drop (offset + width)) := by
  have hsplit := binaryValue_take_drop (bits.drop offset) width
  rw [List.drop_drop, List.length_drop, Nat.sub_sub, Nat.mul_comm] at hsplit
  exact hsplit

theorem binaryValue_drop_eq_sum {bits : List Bool} (h : offset + bitsOf banks = bits.length) :
    binaryValue (bits.drop offset) = ∑ i ∈ Finset.range banks.length,
      ((fieldsFrom .highToLow width offset banks).map fun f => readRange bits f.range).getD i 0 *
        2 ^ BitOrder.highToLow.place banks i := by
  induction banks generalizing offset with
  | nil =>
    rw [bitsOf_nil, Nat.add_zero] at h
    rw [h, List.drop_length]
    rfl
  | cons bank rest ih =>
    rw [bitsOf_cons, ← Nat.add_assoc] at h
    have hplace : bits.length - (offset + bank.indexBits) = bitsOf rest := by omega
    -- the first digit counts the bits of all banks behind it
    rw [binaryValue_drop bits offset bank.indexBits, ih h, hplace, List.length_cons,
      Finset.sum_range_succ', Nat.add_comm]
    rfl

theorem isDigits_highToLow (h : ofBanks .highToLow banks = .ok d) (hwidth : bitsOf banks < maxWord)
    (hbanks : ∀ bank ∈ banks, bank.size ≤ maxWord) (hs : s.width = d.width) :
    ∃ v, d.indices s = .ok v ∧ IsDigits .highToLow banks v s.toNat := by
  have hmax : d.width < maxWord := by rwa [width_of_ofBanks h]
  have hmap := map_bank_of_ofBanks h
  refine ⟨_, indices_eq_ok hmax (size_le_of_ofBanks h hbanks) hs, ?_, ?_, ?_⟩
  · rw [List.length_map, ← hmap, List.length_map]
  · intro i bank digit hbank hdigit
    rw [← hmap, List.getElem?_map] at hbank
    obtain ⟨f, hf, rfl⟩ := Option.map_eq_some_iff.mp hbank
    rw [List.getElem?_map, hf] at hdigit
    obtain rfl := Option.some.inj hdigit
    rw [← f.bank.size_eq]
    exact readRange_lt_size hmax hs (List.mem_of_getElem? hf)
  · have hlength : 0 + bitsOf banks = s.bits.length := by
      rw [Nat.zero_add, ← width_of_ofBanks h]
      exact hs.symm
    rw [fields_of_ofBanks h]
    exact binaryValue_drop_eq_sum hlength

/-- The banks from the right read the reverse of what the reversed banks read from the left. -/
theorem indices_lowToHigh (h : ofBanks .lowToHigh banks = .ok d)
    (h' : ofBanks .highToLow banks.reverse = .ok d') (hwidth : bitsOf banks < maxWord)
    (hbanks : ∀ bank ∈ banks, bank.size ≤ maxWord) (s : Bitstring) :
    d.indices s = (d'.indices s).map List.reverse := by
  have hbits := width_of_ofBanks h
  have hsame : d.width = d'.width := by rw [hbits, width_of_ofBanks h', bitsOf_reverse]
  have hfields : d.fields = d'.fields.reverse := by
    rw [fields_of_ofBanks h, fields_of_ofBanks h', fieldsFrom_lowToHigh (by omega), bitsOf_reverse,
      Nat.sub_zero, Nat.sub_self]
  have hmax : d.width < maxWord := by rwa [hbits]
  have hsizes' := size_le_of_ofBanks h' fun bank hbank => hbanks bank (List.mem_reverse.mp hbank)
  by_cases hs : s.width = d.width
  · rw [indices_eq_ok hmax (size_le_of_ofBanks h hbanks) hs,
      indices_eq_ok (hsame ▸ hmax) hsizes' (hs.trans hsame), hfields, List.map_reverse]
    rfl
  · rw [indices_eq_error hs, indices_eq_error (hsame ▸ hs), hsame]
    rfl

theorem exists_ofBanks_reverse (hne : banks ≠ []) (hwidth : bitsOf banks < maxWord) :
    ∃ d', ofBanks .highToLow banks.reverse = .ok d' := by
  refine exists_ofBanks .highToLow (fun h => hne (List.reverse_eq_nil_iff.mp h)) ?_
  rwa [bitsOf_reverse]

theorem isDigits_of_ofBanks (h : ofBanks order banks = .ok d) (hne : banks ≠ [])
    (hwidth : bitsOf banks < maxWord) (hbanks : ∀ bank ∈ banks, bank.size ≤ maxWord)
    (hs : s.width = d.width) : ∃ v, d.indices s = .ok v ∧ IsDigits order banks v s.toNat := by
  cases order with
  | highToLow => exact isDigits_highToLow h hwidth hbanks hs
  | lowToHigh =>
    obtain ⟨d', h'⟩ := exists_ofBanks_reverse hne hwidth
    have hs' : s.width = d'.width := by
      rw [hs, width_of_ofBanks h, width_of_ofBanks h', bitsOf_reverse]
    obtain ⟨v, hv, hdigits⟩ := isDigits_highToLow h' (by rwa [bitsOf_reverse])
      (fun bank hbank => hbanks bank (List.mem_reverse.mp hbank)) hs'
    refine ⟨v.reverse, ?_, hdigits.reverse⟩
    rw [indices_lowToHigh h h' hwidth hbanks s, hv]
    rfl

end OfBanks

/-- **Banks side by side read digits.** Banks that need fewer bits than the largest word make a
decoder of just these bits in both orders, with a field for each bank in their order. Its indices
are the digits of the binary value in the mixed radix of the banks, the first bank at the highest
place or at the lowest; so from the right the banks read the reverse of what the reversed banks read
from the left. Without banks there is no width. -/
theorem ofBanks_reads_digits {banks : List WordBank} (hne : banks ≠ [])
    (hwidth : bitsOf banks < maxWord) (hbanks : ∀ bank ∈ banks, bank.size ≤ maxWord) :
    (∀ order, ∃ d, ofBanks order banks = .ok d ∧ d.width = bitsOf banks ∧
      d.fields.map (·.bank) = banks ∧ ∀ s : Bitstring, s.width = bitsOf banks →
        ∃ v, d.indices s = .ok v ∧ IsDigits order banks v s.toNat) ∧
    (∃ d d', ofBanks .lowToHigh banks = .ok d ∧ ofBanks .highToLow banks.reverse = .ok d' ∧
      ∀ s, d.indices s = (d'.indices s).map List.reverse) ∧
    ∀ order, ∃ fault, ofBanks order [] = .error (.invalidBinding fault) := by
  refine ⟨fun order => ?_, ?_, fun order => ⟨_, ofBanks_nil order⟩⟩
  · obtain ⟨d, h⟩ := exists_ofBanks order hne hwidth
    refine ⟨d, h, width_of_ofBanks h, map_bank_of_ofBanks h, fun s hs => ?_⟩
    exact isDigits_of_ofBanks h hne hwidth hbanks (hs.trans (width_of_ofBanks h).symm)
  · obtain ⟨d, h⟩ := exists_ofBanks .lowToHigh hne hwidth
    obtain ⟨d', h'⟩ := exists_ofBanks_reverse hne hwidth
    exact ⟨d, d', h, h', indices_lowToHigh h h' hwidth hbanks⟩

/-- Two bits for an hour, one for a sky and two for a wind. -/
def weatherBanks : List WordBank :=
  [⟨"hour", ["dawn", "noon", "dusk", "night"], 2, Nat.two_pos, rfl⟩,
    ⟨"sky", ["clear", "clouded"], 1, Nat.one_pos, rfl⟩,
    ⟨"wind", ["calm", "breeze", "gale", "storm"], 2, Nat.two_pos, rfl⟩]

/-- From the right 23 is three, one time four and two times eight. -/
theorem weatherBanks_read_digits :
    weatherBanks ≠ [] ∧ bitsOf weatherBanks < maxWord ∧
      (∀ bank ∈ weatherBanks, bank.size ≤ maxWord) ∧
      ∃ d, ofBanks .lowToHigh weatherBanks = .ok d ∧
        d.indices ⟨[true, false, true, true, true], by decide⟩ = .ok [3, 1, 2] := by
  have hne : weatherBanks ≠ [] := by decide
  have hwidth : bitsOf weatherBanks < maxWord := by decide
  have hbanks : ∀ bank ∈ weatherBanks, bank.size ≤ maxWord := by decide
  obtain ⟨hread, -, -⟩ := ofBanks_reads_digits hne hwidth hbanks
  obtain ⟨d, hd, -, -, hdigits⟩ := hread .lowToHigh
  obtain ⟨v, hv, hlength, hlt, hvalue⟩ :=
    hdigits ⟨[true, false, true, true, true], by decide⟩ rfl
  obtain ⟨a, b, c, rfl⟩ := List.length_eq_three.mp hlength
  have ha : a < 4 := hlt 0 _ a rfl rfl
  have hb : b < 2 := hlt 1 _ b rfl rfl
  have hc : c < 4 := hlt 2 _ c rfl rfl
  have hsum : 23 = a * 1 + b * 4 + c * 8 := hvalue.trans (by
    simp [weatherBanks, Finset.sum_range_succ, BitOrder.place])
  obtain ⟨rfl, rfl, rfl⟩ : a = 3 ∧ b = 1 ∧ c = 2 := by omega
  exact ⟨hne, hwidth, hbanks, d, hd, hv⟩

end Decoder

end Readout
