import Readout.Error
import Readout.Naturals

/-!
# Word banks

A word bank holds the `2 ^ indexBits` texts that one field of a bitstring chooses from, at least two
of them.
-/

namespace Readout

/-- The texts that a field with `indexBits` bits chooses from, under the name of their role. -/
structure WordBank where
  role : String
  words : List String
  indexBits : Nat
  indexBits_pos : 0 < indexBits
  length_words : words.length = 2 ^ indexBits
  deriving DecidableEq

namespace WordBank

/-- The word bank of a list whose length is a power of two other than one. -/
def ofList (role : String) (words : List String) : Except Error WordBank :=
  if h : 0 < words.length.log2 ∧ words.length = 2 ^ words.length.log2 then
    .ok ⟨role, words, words.length.log2, h.1, h.2⟩
  else .error (.invalidBinding (.bankSize role words.length))

/-- The number of words. -/
def size (b : WordBank) : Nat := b.words.length

/-- The word at an index. -/
def get (b : WordBank) (index : Nat) : Except Error String :=
  match b.words[index]? with
  | some word => .ok word
  | none => .error (.indexOutOfRange index b.size (.wordBank b.role))

theorem size_eq (b : WordBank) : b.size = 2 ^ b.indexBits := b.length_words

theorem get_eq_ok_iff {b : WordBank} {index : Nat} {word : String} :
    b.get index = .ok word ↔ b.words[index]? = some word := by
  unfold get
  cases b.words[index]? <;> simp

theorem get_eq_error_iff {b : WordBank} {index : Nat} {e : Error} :
    b.get index = .error e ↔
      b.size ≤ index ∧ e = .indexOutOfRange index b.size (.wordBank b.role) := by
  unfold get size
  cases h : b.words[index]? with
  | some word =>
    obtain ⟨hlt, -⟩ := List.getElem?_eq_some_iff.mp h
    simp only [reduceCtorEq, false_iff, not_and]
    omega
  | none =>
    rw [List.getElem?_eq_none_iff] at h
    simp only [Except.error.injEq, h, true_and]
    exact eq_comm

end WordBank

end Readout
