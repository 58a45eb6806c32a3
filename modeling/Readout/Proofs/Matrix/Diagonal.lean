import Readout.Proofs.Matrix.PairedDraw
import Readout.Proofs.Matrix.Sums

/-!
# Counts on the diagonal

The diagonal holds at most what its rows hold. If its sum is the total, each row holds no more than
its cell on the diagonal, so that all other cells are zero (`diagonalTotal_eq_total_iff`). A draw
ends at a positive cell or falls back to the fixed choice on both sides, and then holds either way
(`IsDrawn.first_eq_last`).
-/

namespace Readout

namespace CorrelationMatrix

variable {m : CorrelationMatrix} {axis : Axis} {i j : Nat}

/-- All cells off the diagonal are zero. -/
def IsDiagonal (m : CorrelationMatrix) : Prop :=
  ∀ i < m.size, ∀ j < m.size, i ≠ j → m.cell i j = 0

theorem diagonalTotal_eq_sum (m : CorrelationMatrix) :
    m.diagonalTotal = ∑ i ∈ Finset.range m.size, m.cell i i := rfl

theorem cell_le_lineSum_row (hj : j < m.size) : m.cell i j ≤ m.lineSum (.row i) :=
  Finset.single_le_sum_of_canonicallyOrdered (f := fun j => m.cell i j) (Finset.mem_range.mpr hj)

/-- A row holds no more than one of its cells exactly if its other cells are zero. -/
theorem lineSum_row_eq_cell_iff (hi : i < m.size) :
    m.cell i i = m.lineSum (.row i) ↔ ∀ j < m.size, i ≠ j → m.cell i j = 0 := by
  have hsplit : m.cell i i + ∑ j ∈ (Finset.range m.size).erase i, m.cell i j =
      m.lineSum (.row i) :=
    Finset.add_sum_erase (Finset.range m.size) (fun j => m.cell i j) (Finset.mem_range.mpr hi)
  have hzero : ∑ j ∈ (Finset.range m.size).erase i, m.cell i j = 0 ↔
      ∀ j < m.size, i ≠ j → m.cell i j = 0 := by
    rw [Finset.sum_eq_zero_iff]
    simp only [Finset.mem_erase, Finset.mem_range]
    exact ⟨fun h j hj hne => h j ⟨hne.symm, hj⟩, fun h j hj => h j hj.2 hj.1.symm⟩
  rw [← hzero]
  omega

theorem diagonalTotal_eq_total_iff : m.diagonalTotal = m.total ↔ m.IsDiagonal := by
  have hle : ∀ i ∈ Finset.range m.size, m.cell i i ≤ m.lineSum (.row i) := by
    intro i hi
    exact cell_le_lineSum_row (Finset.mem_range.mp hi)
  rw [diagonalTotal_eq_sum, ← sum_rowSums, Finset.sum_eq_sum_iff_of_le hle]
  simp only [Finset.mem_range]
  exact forall₂_congr fun i hi => lineSum_row_eq_cell_iff hi

/-- Where the diagonal holds less than the whole, some row has a positive cell beside it. -/
theorem exists_off_diagonal (h : m.diagonalTotal < m.total) :
    ∃ i < m.size, ∃ cells j n, m.row i = .ok cells ∧ j ≠ i ∧ cells[j]? = some n ∧ 0 < n := by
  have hnot : ¬ m.IsDiagonal := fun hdiagonal =>
    Nat.ne_of_lt h (diagonalTotal_eq_total_iff.mpr hdiagonal)
  simp only [IsDiagonal, not_forall] at hnot
  obtain ⟨i, hi, j, hj, hne, hcell⟩ := hnot
  obtain ⟨cells, hcells⟩ := line_of_lt (show (Axis.row i).index < m.size from hi)
  refine ⟨i, hi, cells, j, m.cell i j, hcells, Ne.symm hne, ?_, Nat.pos_of_ne_zero hcell⟩
  exact (getElem?_line hcells j).trans (get?_of_lt hi hj)

/-! ## Draws from a diagonal -/

/-- A draw that did not fall back weighs a positive cell, which is then one on the diagonal. -/
theorem IsDrawn.first_eq_last {s rest : WordStream} {d : CorrelatedDraw}
    (h : m.IsDrawn axis s rest d) (hdiagonal : m.IsDiagonal) : d.first = d.last := by
  cases hfallback : d.fallback with
  | true =>
    obtain ⟨hfirst, hlast, -⟩ := h.of_fallback hfallback
    rw [hfirst, hlast]
  | false =>
    by_contra hne
    have hcell : m.cell d.first d.last = d.weight := by
      rw [cell, h.get?_eq]
      rfl
    have hzero := hdiagonal d.first h.first_lt d.last h.last_lt hne
    have hpos := (h.of_mass hfallback).1
    omega

theorem IsDrawn.eq_index {s rest : WordStream} {d : CorrelatedDraw}
    (h : m.IsDrawn axis s rest d) (hdiagonal : m.IsDiagonal) :
    d.first = axis.index ∧ d.last = axis.index := by
  have hsame := h.first_eq_last hdiagonal
  have hfixed := h.fixedSide_eq
  cases axis with
  | row _ => exact ⟨hfixed, hsame.symm.trans hfixed⟩
  | column _ => exact ⟨hsame.trans hfixed, hfixed⟩

variable (α : Type) [Arithmetic α]

/-- **Where all counts lie on the diagonal, every draw holds.** If the sum of the diagonal is the
total, a draw along any axis in range, empty lines included, has the fixed choice on both sides. If
it is less, there is a row with a positive cell off the diagonal. -/
theorem diagonal_draws_hold (m : CorrelationMatrix) :
    (m.diagonalTotal = m.total → ∀ axis : Axis, axis.index < m.size → ∀ s, ∃ d rest,
      m.drawAlong α axis s = (.ok d, rest) ∧
      d.held = true ∧ d.first = axis.index ∧ d.last = axis.index) ∧
    (m.diagonalTotal < m.total → ∃ i < m.size, ∃ cells j n,
      m.row i = .ok cells ∧ j ≠ i ∧ cells[j]? = some n ∧ 0 < n) := by
  refine ⟨fun htotal axis hlt s => ?_, exists_off_diagonal⟩
  have hdiagonal := diagonalTotal_eq_total_iff.mp htotal
  obtain ⟨d, rest, hdraw, hdrawn⟩ := exists_isDrawn α s hlt
  exact ⟨d, rest, hdraw, hdrawn.held_iff.mpr (hdrawn.first_eq_last hdiagonal),
    hdrawn.eq_index hdiagonal⟩

/-- Counts on the diagonal, with an empty line in the middle. -/
def gappedDiagonal : CorrelationMatrix :=
  ⟨[[9, 0, 0], [0, 0, 0], [0, 0, 1]], by decide, by decide, by decide⟩

/-- One pair of the last row did not hold. -/
def strayPair : CorrelationMatrix := ⟨[[9, 0], [1, 4]], by decide, by decide, by decide⟩

/-- Draws along the last column and along the empty row hold; the stray pair is found. -/
theorem gappedDiagonal_holds :
    gappedDiagonal.diagonalTotal = gappedDiagonal.total ∧
      (∀ s, ∃ d rest, gappedDiagonal.drawAlong Rat (.column 2) s = (.ok d, rest) ∧
        d.held = true ∧ d.first = 2 ∧ d.last = 2) ∧
      (∀ s, ∃ d rest, gappedDiagonal.drawAlong Rat (.row 1) s = (.ok d, rest) ∧
        d.held = true ∧ d.first = 1 ∧ d.last = 1) ∧
      strayPair.diagonalTotal < strayPair.total ∧
      ∃ i < strayPair.size, ∃ cells j n,
        strayPair.row i = .ok cells ∧ j ≠ i ∧ cells[j]? = some n ∧ 0 < n := by
  have htotal : gappedDiagonal.diagonalTotal = gappedDiagonal.total := by decide
  have hless : strayPair.diagonalTotal < strayPair.total := by decide
  have hholds := (diagonal_draws_hold Rat gappedDiagonal).1 htotal
  exact ⟨htotal, hholds (.column 2) (by decide), hholds (.row 1) (by decide), hless,
    (diagonal_draws_hold Rat strayPair).2 hless⟩

end CorrelationMatrix

end Readout
