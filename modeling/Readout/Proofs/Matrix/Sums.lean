import Mathlib.Algebra.Order.BigOperators.Group.Finset
import Readout.Proofs.Matrix.Cells
import Readout.Proofs.WordSums

/-!
# Sums of joint counts

Only the sum of all cells is checked when a matrix is made. The sums of rows, of columns and of the
diagonal stay below it (`lineSum_le_total`, `diagonalTotal_le_total`), so that adding them up in a
word never leaves it (`sumWord?_eq_some_iff`). A cell counts once in the sum of its row and once in
that of its column, and both kinds of sums add up to the total (`sum_rowSums`, `sum_columnSums`).
-/

namespace Readout

namespace CorrelationMatrix

variable {m : CorrelationMatrix} {axis : Axis} {cells : List Nat} {rows : List (List Nat)}

/-! ## Which rows make a matrix -/

/-- Rows that make a matrix: there is one, each has as many cells as there are rows, and the sum of
all cells fits a word. -/
structure IsSquareTable (rows : List (List Nat)) : Prop where
  ne_nil : rows ≠ []
  length_eq : ∀ r ∈ rows, r.length = rows.length
  sum_le : rows.flatten.sum ≤ maxWord

theorem exists_ofRows_iff : (∃ m, ofRows rows = .ok m) ↔ IsSquareTable rows := by
  constructor
  · rintro ⟨m, hm⟩
    obtain rfl := ofRows_eq_ok_iff.mp hm
    exact ⟨m.rows_ne_nil, m.length_row, m.total_le⟩
  · intro h
    exact ⟨⟨rows, h.ne_nil, h.length_eq, h.sum_le⟩, ofRows_eq_ok_iff.mpr rfl⟩

theorem eq_invalidMatrix_of_ofRows {e : Error} (h : ofRows rows = .error e) :
    ∃ fault, e = .invalidMatrix fault := by
  unfold ofRows at h
  split at h
  · exact ⟨_, (Except.error.inj h).symm⟩
  · split at h
    · exact ⟨_, (Except.error.inj h).symm⟩
    · split at h
      · cases h
      · exact ⟨_, (Except.error.inj h).symm⟩

theorem ofRows_of_not_isSquareTable (h : ¬ IsSquareTable rows) :
    ∃ fault, ofRows rows = .error (.invalidMatrix fault) := by
  cases hrows : ofRows rows with
  | ok m => exact absurd (exists_ofRows_iff.mp ⟨m, hrows⟩) h
  | error e =>
    obtain ⟨fault, rfl⟩ := eq_invalidMatrix_of_ofRows hrows
    exact ⟨fault, rfl⟩

/-! ## Sums of lines -/

/-- The sum of the cells that an axis fixes. -/
def lineSum (m : CorrelationMatrix) (axis : Axis) : Nat :=
  ∑ other ∈ Finset.range m.size, m.cell (axis.pair other).1 (axis.pair other).2

theorem line_eq_map (h : m.line axis = .ok cells) :
    cells = (List.range m.size).map fun other =>
      m.cell (axis.pair other).1 (axis.pair other).2 := by
  refine List.ext_getElem? fun other => ?_
  rw [getElem?_line h, List.getElem?_map]
  by_cases hother : other < m.size
  · obtain ⟨hfirst, hlast⟩ := Axis.pair_lt (index_lt_of_line h) hother
    rw [get?_of_lt hfirst hlast, List.getElem?_range hother]
    rfl
  · have hnone : (List.range m.size)[other]? = none := by
      rw [List.getElem?_eq_none_iff, List.length_range]
      exact Nat.not_lt.mp hother
    rw [hnone, ← getElem?_line h, List.getElem?_eq_none]
    · rfl
    · rw [length_line h]
      exact Nat.not_lt.mp hother

theorem sum_line (h : m.line axis = .ok cells) : cells.sum = m.lineSum axis := by
  rw [line_eq_map h]
  rfl

theorem lineTotal_of_lt (h : axis.index < m.size) : m.lineTotal axis = .ok (m.lineSum axis) := by
  obtain ⟨cells, hcells⟩ := line_of_lt h
  rw [lineTotal_of_line hcells, sum_line hcells]

theorem sum_rowSums (m : CorrelationMatrix) :
    ∑ i ∈ Finset.range m.size, m.lineSum (.row i) = m.total :=
  m.total_eq_sum.symm

theorem sum_columnSums (m : CorrelationMatrix) :
    ∑ j ∈ Finset.range m.size, m.lineSum (.column j) = m.total := by
  rw [total_eq_sum]
  exact Finset.sum_comm

theorem lineSum_le_total (h : axis.index < m.size) : m.lineSum axis ≤ m.total := by
  have hmem : axis.index ∈ Finset.range m.size := Finset.mem_range.mpr h
  cases axis with
  | row i =>
    rw [← sum_rowSums]
    exact Finset.single_le_sum_of_canonicallyOrdered (f := fun i => m.lineSum (.row i)) hmem
  | column j =>
    rw [← sum_columnSums]
    exact Finset.single_le_sum_of_canonicallyOrdered (f := fun j => m.lineSum (.column j)) hmem

/-- The cells on the diagonal, from the first row on. -/
def diagonal (m : CorrelationMatrix) : List Nat := (List.range m.size).map fun i => m.cell i i

theorem sum_diagonal (m : CorrelationMatrix) : m.diagonal.sum = m.diagonalTotal := rfl

theorem diagonalTotal_le_total (m : CorrelationMatrix) : m.diagonalTotal ≤ m.total := by
  have hcell : ∀ i ∈ Finset.range m.size, m.cell i i ≤ m.lineSum (.row i) := by
    intro i hi
    exact Finset.single_le_sum_of_canonicallyOrdered (f := fun j => m.cell i j) hi
  rw [← sum_rowSums]
  exact Finset.sum_le_sum hcell

/-! ## Cells and sums of a matrix -/

/-- What a matrix of the given rows says of its cells. The one in row `i` and column `j` of the rows
is got by itself, from its row, from its column, and by its place when all rows stand one after the
other; there are no other cells and no other lines. -/
structure ReadsRows (m : CorrelationMatrix) (rows : List (List Nat)) : Prop where
  size_eq : m.size = rows.length
  inside : ∀ i < m.size, ∀ j < m.size, ∃ n row column,
    (rows[i]?).bind (·[j]?) = some n ∧ m.get? i j = some n ∧
    (m.row i = .ok row ∧ row[j]? = some n) ∧ (m.column j = .ok column ∧ column[i]? = some n) ∧
    rows.flatten[i * m.size + j]? = some n
  outside : ∀ i j, m.size ≤ i ∨ m.size ≤ j → m.get? i j = none
  rowOutside : ∀ i, m.size ≤ i →
    m.row i = .error (.indexOutOfRange i m.size (.matrixLine .row)) ∧
    m.rowTotal i = .error (.indexOutOfRange i m.size (.matrixLine .row))
  columnOutside : ∀ j, m.size ≤ j →
    m.column j = .error (.indexOutOfRange j m.size (.matrixLine .column)) ∧
    m.columnTotal j = .error (.indexOutOfRange j m.size (.matrixLine .column))

/-- How the sums of a matrix hang together: those of the rows and those of the columns add up to the
total, and that of the diagonal is no greater. Each of them can be added up in a word. -/
structure SumsAgree (m : CorrelationMatrix) : Prop where
  rowTotal_eq : ∀ i < m.size, m.rowTotal i = .ok (m.lineSum (.row i))
  columnTotal_eq : ∀ j < m.size, m.columnTotal j = .ok (m.lineSum (.column j))
  sum_rows : ∑ i ∈ Finset.range m.size, m.lineSum (.row i) = m.total
  sum_columns : ∑ j ∈ Finset.range m.size, m.lineSum (.column j) = m.total
  diagonal_le : m.diagonalTotal ≤ m.total
  sumWord?_line : ∀ axis cells, m.line axis = .ok cells →
    sumWord? cells = some (m.lineSum axis)
  sumWord?_diagonal : sumWord? m.diagonal = some m.diagonalTotal
  sumWord?_total : sumWord? m.rows.flatten = some m.total

theorem readsRows (m : CorrelationMatrix) : m.ReadsRows m.rows where
  size_eq := rfl
  inside := by
    intro i hi j hj
    obtain ⟨row, hrow⟩ := line_of_lt (show (Axis.row i).index < m.size from hi)
    obtain ⟨column, hcolumn⟩ := line_of_lt (show (Axis.column j).index < m.size from hj)
    have hcell := get?_of_lt hi hj
    refine ⟨m.cell i j, row, column, hcell, hcell, ⟨hrow, ?_⟩, ⟨hcolumn, ?_⟩, ?_⟩
    · exact (getElem?_line hrow j).trans hcell
    · exact (getElem?_line hcolumn i).trans hcell
    · exact (getElem?_flatten hj).trans hcell
  outside := fun i j h => get?_of_le h
  rowOutside := by
    intro i h
    have hindex : m.size ≤ (Axis.row i).index := h
    exact ⟨line_of_le hindex, lineTotal_of_le hindex⟩
  columnOutside := by
    intro j h
    have hindex : m.size ≤ (Axis.column j).index := h
    exact ⟨line_of_le hindex, lineTotal_of_le hindex⟩

theorem sumsAgree (m : CorrelationMatrix) : m.SumsAgree where
  rowTotal_eq := fun i h => lineTotal_of_lt (show (Axis.row i).index < m.size from h)
  columnTotal_eq := fun j h => lineTotal_of_lt (show (Axis.column j).index < m.size from h)
  sum_rows := m.sum_rowSums
  sum_columns := m.sum_columnSums
  diagonal_le := m.diagonalTotal_le_total
  sumWord?_line := by
    intro axis cells h
    have hle := (lineSum_le_total (index_lt_of_line h)).trans m.total_le
    exact sumWord?_eq_some_iff.mpr ⟨sum_line h, hle⟩
  sumWord?_diagonal :=
    sumWord?_eq_some_iff.mpr ⟨m.sum_diagonal, m.diagonalTotal_le_total.trans m.total_le⟩
  sumWord?_total := sumWord?_eq_some_iff.mpr ⟨rfl, m.total_le⟩

/-- **The one check of the total guards every sum.** A matrix is made exactly of the rows that form
a square table whose cells sum to a word; any others are refused as no matrix. It has the cells of
its rows, whichever way they are read, and beyond them refuses. The sums of its rows and those of
its columns add up to its total, the diagonal's stays below it, and no sum leaves a word on the way.
-/
theorem ofRows_guards_sums (rows : List (List Nat)) :
    ((∃ m, ofRows rows = .ok m) ↔ IsSquareTable rows) ∧
    (¬ IsSquareTable rows → ∃ fault, ofRows rows = .error (.invalidMatrix fault)) ∧
    ∀ m, ofRows rows = .ok m →
      m.ReadsRows rows ∧ m.total = rows.flatten.sum ∧ m.SumsAgree := by
  refine ⟨exists_ofRows_iff, ofRows_of_not_isSquareTable, fun m hm => ?_⟩
  obtain rfl := ofRows_eq_ok_iff.mp hm
  exact ⟨m.readsRows, rfl, m.sumsAgree⟩

/-- Counts that fill a word make a matrix, and one more of them does not. -/
theorem ofRows_fills_word :
    (IsSquareTable [[maxWord - 1, 0], [0, 1]] ∧ ∃ m, ofRows [[maxWord - 1, 0], [0, 1]] = .ok m ∧
      m.ReadsRows [[maxWord - 1, 0], [0, 1]] ∧ m.total = maxWord ∧ m.SumsAgree) ∧
    ¬ IsSquareTable [[maxWord, 0], [0, 1]] ∧
      ∃ fault, ofRows [[maxWord, 0], [0, 1]] = .error (.invalidMatrix fault) := by
  obtain ⟨hmade, -, hsums⟩ := ofRows_guards_sums [[maxWord - 1, 0], [0, 1]]
  obtain ⟨-, hrefused, -⟩ := ofRows_guards_sums [[maxWord, 0], [0, 1]]
  have hfull : IsSquareTable [[maxWord - 1, 0], [0, 1]] :=
    ⟨by decide, by decide, by decide⟩
  have hover : ¬ IsSquareTable [[maxWord, 0], [0, 1]] := by
    intro h
    exact absurd h.sum_le (by decide)
  obtain ⟨m, hm⟩ := hmade.mpr hfull
  obtain ⟨hreads, htotal, hagree⟩ := hsums m hm
  exact ⟨⟨hfull, m, hm, hreads, htotal, hagree⟩, hover, hrefused hover⟩

end CorrelationMatrix

end Readout
