import Readout.Word

/-!
# Sums in a word

Numbers are added up in a word one after the other, and each partial sum has to fit. The whole sum
decides: if it fits, no partial sum leaves the word (`sumWord?_eq_some_iff`).
-/

namespace Readout

/-- One addition in a word. -/
def addWord? (n w : Nat) : Option Nat := if n + w ≤ maxWord then some (n + w) else none

/-- Numbers added up in a word, from the left; nothing once a sum leaves the word. -/
def sumWord? (ws : List Nat) : Option Nat := ws.foldlM addWord? 0

theorem foldlM_addWord? {start : Nat} (h : start ≤ maxWord) (ws : List Nat) :
    ws.foldlM addWord? start =
      if start + ws.sum ≤ maxWord then some (start + ws.sum) else none := by
  induction ws generalizing start with
  | nil => exact (if_pos h).symm
  | cons w ws ih =>
    rw [List.foldlM_cons, addWord?, List.sum_cons, ← Nat.add_assoc]
    by_cases hfits : start + w ≤ maxWord
    · rw [if_pos hfits]
      exact ih hfits
    · have hover : ¬ start + w + ws.sum ≤ maxWord := by omega
      rw [if_neg hfits, if_neg hover]
      rfl

/-- No partial sum leaves the word if the whole sum does not. -/
theorem sumWord?_eq_some_iff {ws : List Nat} {n : Nat} :
    sumWord? ws = some n ↔ ws.sum = n ∧ n ≤ maxWord := by
  rw [sumWord?, foldlM_addWord? (Nat.zero_le maxWord), Nat.zero_add]
  by_cases hfits : ws.sum ≤ maxWord
  · rw [if_pos hfits, Option.some.injEq]
    constructor
    · rintro rfl
      exact ⟨rfl, hfits⟩
    · exact And.left
  · rw [if_neg hfits]
    constructor
    · exact nofun
    · rintro ⟨rfl, hle⟩
      exact absurd hle hfits

end Readout
