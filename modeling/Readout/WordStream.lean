import Readout.Arithmetic
import Readout.Naturals

/-!
# Streams of random words

Randomness is supplied from outside as an endless stream of 64-bit words together with the number of
words already taken. A draw takes words from the front and hands back the stream behind them.
-/

namespace Readout

/-- An endless stream of 64-bit words and how many of them were taken. -/
structure WordStream where
  word : Nat → UInt64
  taken : Nat

namespace WordStream

/-- The stream that repeats the given words; with none given every word is zero. -/
def cycle (words : Array UInt64) : WordStream where
  word n := words[n % words.size]?.getD 0
  taken := 0

/-- The output function of the SplitMix64 generator. -/
def splitMixWord (state : UInt64) : UInt64 :=
  let z := (state ^^^ (state >>> 30)) * 0xBF58476D1CE4E5B9
  let z := (z ^^^ (z >>> 27)) * 0x94D049BB133111EB
  z ^^^ (z >>> 31)

/-- The words of the SplitMix64 generator: word `n` comes from the seed advanced `n + 1` times by
the generator's constant. -/
def splitMix (seed : UInt64) : WordStream where
  word n := splitMixWord (seed + (n + 1).toUInt64 * 0x9E3779B97F4A7C15)
  taken := 0

/-- Takes one word. -/
def next (s : WordStream) : UInt64 × WordStream :=
  (s.word s.taken, { s with taken := s.taken + 1 })

/-- The stream after `n` more words. -/
def drop (s : WordStream) (n : Nat) : WordStream := { s with taken := s.taken + n }

theorem snd_next (s : WordStream) : s.next.2 = s.drop 1 := rfl

theorem drop_drop (s : WordStream) (m n : Nat) : (s.drop m).drop n = s.drop (m + n) := by
  simp [drop, Nat.add_assoc]

end WordStream

/-- The number in `[0, 1)` that a word stands for: its upper 53 bits as a binary fraction. -/
def unitOfWord (α : Type) [Arithmetic α] (w : UInt64) : α :=
  Arithmetic.ofNat (w >>> 11).toNat / Arithmetic.ofNat (2 ^ 53)

end Readout
