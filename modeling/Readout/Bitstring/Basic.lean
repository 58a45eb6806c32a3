import Readout.Binary
import Readout.Naturals

/-!
# Bitstrings

A measured outcome is a non-empty string of bits, the leftmost one most significant. Bitstrings are
ordered lexically, which on equal widths is the order of their binary values.

* `Bitstring.ofString?_eq_some_iff`: a text is read as a bitstring exactly if it is the text of that
  bitstring.
-/

namespace Readout

open Std

/-- A non-empty string of bits, the leftmost one first. -/
structure Bitstring where
  bits : List Bool
  bits_ne_nil : bits ≠ []
  deriving DecidableEq

namespace Bitstring

@[ext] theorem ext {s t : Bitstring} (h : s.bits = t.bits) : s = t := by
  obtain ⟨_, _⟩ := s
  obtain ⟨_, _⟩ := t
  simp only at h
  subst h
  rfl

/-- Lexical order: the first bit that differs decides, and a proper beginning comes first. -/
instance : Ord Bitstring := ⟨fun s t => compare s.bits t.bits⟩

theorem compare_def (s t : Bitstring) : compare s t = compare s.bits t.bits := rfl

instance : OrientedOrd Bitstring := ⟨fun {s t} => OrientedCmp.eq_swap (a := s.bits) (b := t.bits)⟩

instance : TransOrd Bitstring where
  isLE_trans {s t u} h h' := TransCmp.isLE_trans (a := s.bits) (b := t.bits) (c := u.bits) h h'

instance : LawfulEqOrd Bitstring where
  compare_self {s} := ReflCmp.compare_self (a := s.bits)
  eq_of_compare h := ext (LawfulEqCmp.eq_of_compare h)

/-- The number of bits. -/
def width (s : Bitstring) : Nat := s.bits.length

theorem width_pos (s : Bitstring) : 0 < s.width := List.length_pos_iff.mpr s.bits_ne_nil

/-- How many bits are set. -/
def countOnes (s : Bitstring) : Nat := s.bits.count true

/-- The binary value. -/
def toNat (s : Bitstring) : Nat := binaryValue s.bits

/-- The bitstring of the given bits, unless there are none. -/
def ofBits? (bits : List Bool) : Option Bitstring :=
  if h : bits ≠ [] then some ⟨bits, h⟩ else none

/-- The bit that a character stands for. -/
def bitOfChar? (c : Char) : Option Bool :=
  if c = '0' then some false else if c = '1' then some true else none

/-- The character of a bit. -/
def charOfBit (b : Bool) : Char := if b then '1' else '0'

/-- The bitstring that a text of zeros and ones stands for. -/
def ofString? (s : String) : Option Bitstring := s.toList.mapM bitOfChar? >>= ofBits?

/-- The text of zeros and ones. -/
def text (s : Bitstring) : String := String.ofList (s.bits.map charOfBit)

theorem bitOfChar?_charOfBit (b : Bool) : bitOfChar? (charOfBit b) = some b := by
  cases b <;> decide

theorem charOfBit_of_bitOfChar? {c : Char} {b : Bool} (h : bitOfChar? c = some b) :
    charOfBit b = c := by
  unfold bitOfChar? at h
  split at h
  · rename_i hc
    cases h
    exact hc.symm
  · split at h
    · rename_i hc
      cases h
      exact hc.symm
    · cases h

theorem mapM_bitOfChar?_eq_some_iff {cs : List Char} {bits : List Bool} :
    cs.mapM bitOfChar? = some bits ↔ bits.map charOfBit = cs := by
  induction cs generalizing bits with
  | nil => simp [eq_comm]
  | cons c cs ih =>
    rw [List.mapM_cons]
    constructor
    · intro h
      obtain ⟨b, hb, h⟩ := Option.bind_eq_some_iff.mp h
      obtain ⟨rest, hrest, h⟩ := Option.bind_eq_some_iff.mp h
      obtain rfl : b :: rest = bits := Option.some.inj h
      rw [List.map_cons, charOfBit_of_bitOfChar? hb, ih.mp hrest]
    · intro h
      cases bits with
      | nil => cases h
      | cons b rest =>
        obtain ⟨rfl, hrest⟩ := List.cons.inj h
        rw [bitOfChar?_charOfBit, ih.mpr hrest]
        rfl

theorem ofBits?_eq_some_iff {bits : List Bool} {s : Bitstring} :
    ofBits? bits = some s ↔ s.bits = bits := by
  unfold ofBits?
  split
  · rw [Option.some.injEq]
    exact ⟨fun h => h ▸ rfl, fun h => ext h.symm⟩
  · rename_i h
    simp only [reduceCtorEq, false_iff]
    rintro rfl
    exact h s.bits_ne_nil

theorem ofString?_eq_some_iff {t : String} {s : Bitstring} :
    ofString? t = some s ↔ s.text = t := by
  have htext : s.text = t ↔ s.bits.map charOfBit = t.toList :=
    ⟨fun h => h ▸ String.toList_ofList.symm, fun h => by rw [text, h, String.ofList_toList]⟩
  rw [htext, ← mapM_bitOfChar?_eq_some_iff]
  constructor
  · intro h
    obtain ⟨bits, hbits, h⟩ := Option.bind_eq_some_iff.mp h
    rw [ofBits?_eq_some_iff.mp h]
    exact hbits
  · intro h
    exact Option.bind_eq_some_iff.mpr ⟨s.bits, h, ofBits?_eq_some_iff.mpr rfl⟩

theorem toNat_lt (s : Bitstring) : s.toNat < 2 ^ s.width := binaryValue_lt s.bits

end Bitstring

end Readout
