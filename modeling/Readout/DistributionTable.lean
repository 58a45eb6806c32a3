import Readout.Arithmetic
import Readout.Bitstring.Reading
import Readout.Naturals
import Readout.OrderedMap

/-!
# Tables of recorded counts

A `DistributionTable` holds how often each outcome of one circuit was recorded. Its keys have one
width and stand in ascending order, and its total is positive and fits a word; these rules are part
of the type, and `DistributionTable.ofCounts` is what establishes them from a list of pairs.
-/

namespace Readout

open Std

/-- Recorded counts of outcomes of one width. -/
structure DistributionTable where
  label : Option String
  width : Nat
  counts : OrderedMap Bitstring Nat
  width_eq : ∀ e ∈ counts.entries, e.1.width = width
  total_pos : 0 < counts.values.sum
  total_le : counts.values.sum ≤ maxWord
  deriving DecidableEq

namespace DistributionTable

/-- Keys of one width with their counts, as gathered before the total is known. -/
structure Draft (width : Nat) where
  counts : OrderedMap Bitstring Nat
  width_eq : ∀ e ∈ counts.entries, e.1.width = width

/-- A draft without entries. -/
def Draft.empty (width : Nat) : Draft width := ⟨∅, fun _ h => absurd h List.not_mem_nil⟩

/-- Adds one pair. Its key has to be a bitstring of the draft's width that is not there yet. -/
def Draft.add {width : Nat} (label : Option String) (draft : Draft width) (pair : String × Nat) :
    Except Error (Draft width) :=
  match Bitstring.parse pair.1 with
  | .error e => .error e
  | .ok key =>
    if h : key.width = width then
      if draft.counts.contains key then .error (.malformedTable label (.duplicateKey key.text))
      else .ok ⟨draft.counts.insert key pair.2, fun _ he => by
        rcases OrderedMap.mem_insertEntry he with rfl | he
        · exact h
        · exact draft.width_eq _ he⟩
    else .error (.malformedTable label (.mixedWidth key.text key.width width))

/-- Adds pairs from the left, up to the first that is refused. -/
def Draft.addAll {width : Nat} (label : Option String) (draft : Draft width) :
    List (String × Nat) → Except Error (Draft width)
  | [] => .ok draft
  | pair :: rest =>
    match draft.add label pair with
    | .error e => .error e
    | .ok next => next.addAll label rest

/-- Makes a table of a draft whose total is positive and fits a word. -/
def Draft.finish {width : Nat} (label : Option String) (draft : Draft width) :
    Except Error DistributionTable :=
  if hle : draft.counts.values.sum ≤ maxWord then
    if hpos : 0 < draft.counts.values.sum then
      .ok ⟨label, width, draft.counts, draft.width_eq, hpos, hle⟩
    else .error (.malformedTable label .allZero)
  else .error (.malformedTable label .totalTooLarge)

/-- The table of a list of pairs, in any order. The first key sets the width. -/
def ofCounts (label : Option String) (pairs : List (String × Nat)) :
    Except Error DistributionTable :=
  match pairs with
  | [] => .error (.malformedTable label .noEntries)
  | first :: _ =>
    match Bitstring.parse first.1 with
    | .error e => .error e
    | .ok key =>
      match (Draft.empty key.width).addAll label pairs with
      | .error e => .error e
      | .ok draft => draft.finish label

/-- The pairs of keys and counts, keys ascending. -/
def entries (t : DistributionTable) : List (Bitstring × Nat) := t.counts.entries

/-- The counts, in the order of the entries. -/
def weights (t : DistributionTable) : List Nat := t.counts.values

/-- The sum of all counts. -/
def total (t : DistributionTable) : Nat := t.weights.sum

/-- The number of keys. -/
def size (t : DistributionTable) : Nat := t.entries.length

/-- The recorded count of a key, looked for by halving the entries; zero for a key that was never
recorded. -/
def count (t : DistributionTable) (key : Bitstring) : Nat :=
  match bisect (fun e => compare e.1 key) t.entries with
  | some e => e.2
  | none => 0

/-- The share of the total that a key has. The total of a table is positive, so nothing guards the
division. -/
def probability (α : Type) [Arithmetic α] (t : DistributionTable) (key : Bitstring) : α :=
  Arithmetic.ofNat (t.count key) / Arithmetic.ofNat t.total

/-- The table as text: a heading and a line for each entry. -/
def text (t : DistributionTable) : String :=
  let label := t.label.getD "<unlabeled>"
  s!"Distribution {label} ({t.width} bits, {t.total} shots):\n" ++
    String.join (t.entries.map fun e => s!"  {e.1.text}: {e.2}\n")

/-- Refuses a table whose keys do not have the width asked for. -/
def checkWidth (t : DistributionTable) (width : Nat) : Except Error Unit :=
  if t.width = width then .ok () else .error (.widthMismatch width t.width)

theorem entries_ne_nil (t : DistributionTable) : t.entries ≠ [] := by
  intro h
  have hpos := t.total_pos
  unfold entries at h
  simp [OrderedMap.values, h] at hpos

theorem width_eq_of_mem {t : DistributionTable} {e : Bitstring × Nat} (h : e ∈ t.entries) :
    e.1.width = t.width := t.width_eq e h

theorem count_eq_getD (t : DistributionTable) (key : Bitstring) :
    t.count key = t.counts.getD key 0 := by
  rw [OrderedMap.getD, ← t.counts.bisect_entries key, count, entries]
  cases bisect (fun e => compare e.1 key) t.counts.entries <;> rfl

theorem count_eq_of_mem {t : DistributionTable} {key : Bitstring} {n : Nat}
    (h : (key, n) ∈ t.entries) : t.count key = n := by
  simp [count_eq_getD, OrderedMap.getD, OrderedMap.get?_eq_some_iff.mpr h]

end DistributionTable

end Readout
