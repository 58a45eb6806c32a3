import Readout.DistributionTable
import Readout.Proofs.Bitstring.Numerals
import Readout.Proofs.Lists

/-!
# Lexical and numeric order

The first bit that differs decides which of two bitstrings of one width is lower. It also decides
which of their values is lower, since all the bits behind it count less than it does
(`compare_eq_lt_iff_binaryValue_lt`). A table, whose keys ascend in lexical order, therefore lists
them by their values.
-/

namespace Readout

theorem compare_eq_lt_iff_binaryValue_lt {l r : List Bool} (h : l.length = r.length) :
    compare l r = .lt ↔ binaryValue l < binaryValue r := by
  induction l generalizing r with
  | nil =>
    obtain rfl : r = [] := List.length_eq_zero_iff.mp h.symm
    exact ⟨nofun, fun hlt => absurd hlt (Nat.lt_irrefl _)⟩
  | cons a l ih =>
    cases r with
    | nil => cases h
    | cons b r =>
      have hlength : l.length = r.length := Nat.succ.inj h
      have hl := binaryValue_lt l
      have hr := binaryValue_lt r
      rw [Bitstring.compare_bits_cons, Ordering.then_eq_lt, ih hlength, binaryValue_cons,
        binaryValue_cons, hlength]
      rw [hlength] at hl
      cases a <;> cases b
      · simp [compare]
      · -- a bit that is set counts more than all the bits behind one that is not
        simp [compare]
        omega
      · simp [compare]
        omega
      · simp [compare]

namespace Bitstring

theorem compare_eq_lt_iff_toNat_lt {s t : Bitstring} (h : s.width = t.width) :
    compare s t = .lt ↔ s.toNat < t.toNat := by
  rw [compare_def]
  exact compare_eq_lt_iff_binaryValue_lt h

end Bitstring

namespace DistributionTable

variable {t : DistributionTable}

theorem pairwise_toNat_lt (t : DistributionTable) :
    t.entries.Pairwise fun a b => a.1.toNat < b.1.toNat := by
  refine t.counts.ascending.imp_of_mem ?_
  intro a b ha hb hlt
  have hwidth : a.1.width = b.1.width := (width_eq_of_mem ha).trans (width_eq_of_mem hb).symm
  exact (Bitstring.compare_eq_lt_iff_toNat_lt hwidth).mp hlt

theorem mapM_toIndex (h : t.width ≤ 63) :
    t.entries.mapM (fun e => e.1.toIndex) = .ok (t.entries.map fun e => e.1.toNat) := by
  apply mapM_eq_ok
  intro e he
  apply Bitstring.toIndex_eq_ok
  rw [width_eq_of_mem he]
  exact h

end DistributionTable

/-- **Lexical order is numeric order.** Of two bitstrings of one width the lower, by their bits or
by their texts, is the one of the lower value. So the entries of a table stand in strictly ascending
order of the values of their keys, and where the keys are read as numbers these ascend. -/
theorem lexical_order_is_numeric :
    (∀ s t : Bitstring, s.width = t.width →
      (compare s t = .lt ↔ s.toNat < t.toNat) ∧ (s.text < t.text ↔ s.toNat < t.toNat)) ∧
    (∀ t : DistributionTable, t.entries.Pairwise fun a b => a.1.toNat < b.1.toNat) ∧
    ∀ t : DistributionTable, t.width ≤ 63 →
      ∃ indices, t.entries.mapM (fun e => e.1.toIndex) = .ok indices ∧
        indices.length = t.size ∧ indices.Pairwise (· < ·) := by
  refine ⟨?_, DistributionTable.pairwise_toNat_lt, ?_⟩
  · intro s t hwidth
    have hlt := Bitstring.compare_eq_lt_iff_toNat_lt hwidth
    exact ⟨hlt, Bitstring.compare_eq_lt_iff_text_lt.symm.trans hlt⟩
  · intro t hwidth
    refine ⟨_, DistributionTable.mapM_toIndex hwidth, List.length_map _, ?_⟩
    exact List.pairwise_map.mpr t.pairwise_toNat_lt

end Readout
