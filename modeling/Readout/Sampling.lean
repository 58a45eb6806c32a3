import Readout.Decimal.Percent
import Readout.DistributionTable
import Readout.Naturals
import Readout.WordStream

/-!
# Weighted draws

A draw takes one word, reads it as a number `u` in `[0, 1)` and walks down the weights in their
fixed order, subtracting each from `u * total`, until nothing is left. Weights of zero are passed
over, and a walk that runs off the end falls back to the last weight that is not zero. Every draw
can be made in any `Arithmetic`.
-/

namespace Readout

/-- Walks down the weights, the first of which has the given index. The result is the index of the
first weight other than zero that uses up what remains, or else the last such weight passed, or else
`fallback`. -/
def walk {α : Type} [Arithmetic α] (remaining : α) (index : Nat) (fallback : Option Nat) :
    List Nat → Option Nat
  | [] => fallback
  | weight :: rest =>
    if weight = 0 then walk remaining (index + 1) fallback rest
    else
      let left := remaining - Arithmetic.ofNat weight
      if Arithmetic.isNonpos left then some index
      else walk left (index + 1) (some index) rest

/-- The index that the number `u` in `[0, 1)` picks from the weights, of which `total` is said to be
the sum. -/
def pickIndex {α : Type} [Arithmetic α] (weights : List Nat) (total : Nat) (u : α) : Option Nat :=
  walk (u * Arithmetic.ofNat total) 0 none weights

/-- Draws an index with the weights' proportions. A total of zero takes no word. -/
def drawIndex (α : Type) [Arithmetic α] (weights : List Nat) (total : Nat) (s : WordStream) :
    Option Nat × WordStream :=
  if total = 0 then (none, s)
  else (pickIndex weights total (unitOfWord α s.next.1), s.next.2)

/-- Draws an index with the weights' own sum as total, held at the largest word. -/
def drawWeighted (α : Type) [Arithmetic α] (weights : List Nat) (s : WordStream) :
    Option Nat × WordStream :=
  drawIndex α weights (saturate weights.sum) s

/-- A drawn outcome with its recorded count and the total of its table. -/
structure Sample where
  key : Bitstring
  count : Nat
  total : Nat
  deriving DecidableEq

namespace Sample

/-- The recorded share of the outcome. -/
def probability (α : Type) [Arithmetic α] (s : Sample) : α := Arithmetic.share α s.count s.total

/-- The recorded share in parts of a hundred. -/
def percentage (α : Type) [Arithmetic α] (s : Sample) : α :=
  Arithmetic.hundredfold (s.probability α)

/-- The outcome with its count and its share. -/
def text (s : Sample) : String :=
  let percent := Decimal.percent Decimal.defaultPercentPlaces (s.probability Float)
  s!"{s.key.text} ({s.count}/{s.total} shots, {percent}%)"

end Sample

namespace DistributionTable

/-- Draws an entry by weights that are kept beside the table; the first one if the walk were to find
none. -/
def drawEntryBy (α : Type) [Arithmetic α] (t : DistributionTable) (weights : List Nat)
    (s : WordStream) : (Bitstring × Nat) × WordStream :=
  let (index, rest) := drawIndex α weights t.total s
  let first := t.entries.head t.entries_ne_nil
  (t.entries.getD (index.getD 0) first, rest)

/-- Draws an outcome by weights that are kept beside the table. -/
def sampleBy (α : Type) [Arithmetic α] (t : DistributionTable) (weights : List Nat)
    (s : WordStream) : Sample × WordStream :=
  let (entry, rest) := t.drawEntryBy α weights s
  (⟨entry.1, entry.2, t.total⟩, rest)

/-- Draws an entry with the proportions of the recorded counts. -/
def drawEntry (α : Type) [Arithmetic α] (t : DistributionTable) (s : WordStream) :
    (Bitstring × Nat) × WordStream :=
  t.drawEntryBy α t.weights s

/-- Draws an outcome with the proportions of the recorded counts. -/
def sample (α : Type) [Arithmetic α] (t : DistributionTable) (s : WordStream) :
    Sample × WordStream :=
  t.sampleBy α t.weights s

end DistributionTable

/-- How often each outcome came up. -/
abbrev Histogram := OrderedMap Bitstring Nat

namespace Histogram

/-- Counts one more occurrence of an outcome. -/
def bump (h : Histogram) (key : Bitstring) : Histogram := h.insert key (h.getD key 0 + 1)

/-- The number of occurrences counted. -/
def total (h : Histogram) : Nat := h.values.sum

end Histogram

namespace DistributionTable

/-- Draws `shots` outcomes one after the other and counts them on top of a histogram. -/
def histogramOnto (α : Type) [Arithmetic α] (t : DistributionTable) (shots : Nat)
    (h : Histogram) (s : WordStream) : Histogram × WordStream :=
  match shots with
  | 0 => (h, s)
  | shots + 1 =>
    let (entry, rest) := t.drawEntry α s
    t.histogramOnto α shots (h.bump entry.1) rest

/-- The histogram of `shots` draws. -/
def histogram (α : Type) [Arithmetic α] (t : DistributionTable) (shots : Nat) (s : WordStream) :
    Histogram × WordStream :=
  t.histogramOnto α shots ∅ s

end DistributionTable

end Readout
