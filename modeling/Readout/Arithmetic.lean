/-!
# Arithmetic

The operations that draws, statistics and chords need of numbers. Each of those is written once,
over any `Arithmetic`. `Float` is the one that runs, with binary64 rounding after every operation;
`Rat` computes without rounding.
-/

namespace Readout

/-- Numbers that a draw or a statistic can be computed in. Nothing is assumed of the operations, so
what holds over every `Arithmetic` holds whatever the rounding. -/
class Arithmetic (α : Type) extends Add α, Sub α, Mul α, Div α where
  /-- The number nearest to a whole number. -/
  ofNat : Nat → α
  /-- The sum of no numbers. -/
  emptySum : α
  /-- Whether a number is zero or below. -/
  isNonpos : α → Bool

/-- Binary64: a whole number is rounded to the nearest double, and a sum starts from negative zero,
which is neutral for every double. -/
instance : Arithmetic Float where
  ofNat := Float.ofNat
  emptySum := -0.0
  isNonpos x := decide (x ≤ 0.0)

/-- Exact arithmetic. -/
instance : Arithmetic Rat where
  ofNat n := n
  emptySum := 0
  isNonpos x := decide (x ≤ 0)

namespace Arithmetic

variable {α : Type} [Arithmetic α]

/-- The sum of a list, from the left. -/
def sum (xs : List α) : α := xs.foldl (· + ·) emptySum

/-- The share of `total` that `count` is, and zero when there is no total. -/
def share (α : Type) [Arithmetic α] (count total : Nat) : α :=
  if total = 0 then ofNat 0 else ofNat count / ofNat total

/-- A share in parts of a hundred. -/
def hundredfold (x : α) : α := x * ofNat 100

end Arithmetic

end Readout
