import Mathlib.Algebra.BigOperators.Group.Finset.Basic
import Readout.Proofs.Matrix.Lines

/-!
# Joint counts by their cells

A matrix is the table of its cells: `squareRows` lists the rows of a table that is given cell by
cell, and every matrix is listed so (`rows_eq_squareRows`). Matrices with the same cells are
therefore equal (`eq_of_get?`), and the total is a double sum over the cells (`total_eq_sum`), in
which rows and columns can change places.
-/

namespace Readout

namespace CorrelationMatrix

variable {m n : CorrelationMatrix}

/-- The rows of the square table that has `f i j` in row `i` and column `j`. -/
def squareRows (size : Nat) (f : Nat → Nat → Nat) : List (List Nat) :=
  (List.range size).map fun i => (List.range size).map (f i)

/-- A cell, and zero outside the matrix. -/
def cell (m : CorrelationMatrix) (i j : Nat) : Nat := (m.get? i j).getD 0

theorem get?_of_le {i j : Nat} (h : m.size ≤ i ∨ m.size ≤ j) : m.get? i j = none := by
  unfold get?
  cases hrow : m.rows[i]? with
  | none => rfl
  | some cells =>
    have hlength := length_of_getElem?_rows hrow
    have hi : i < m.size := (List.getElem?_eq_some_iff.mp hrow).1
    refine List.getElem?_eq_none ?_
    omega

theorem get?_of_lt {i j : Nat} (hi : i < m.size) (hj : j < m.size) :
    m.get? i j = some (m.cell i j) := by
  have hrow : m.rows[i]? = some m.rows[i] := List.getElem?_eq_getElem hi
  have hlength : m.rows[i].length = m.size := length_of_getElem?_rows hrow
  have hcell : m.get? i j = some m.rows[i][j] := by
    unfold get?
    rw [hrow]
    exact List.getElem?_eq_getElem (by omega)
  rw [cell, hcell, Option.getD_some]

/-! ## Tables given cell by cell -/

section SquareRows

variable {size : Nat} {f : Nat → Nat → Nat}

theorem length_squareRows : (squareRows size f).length = size := by
  rw [squareRows, List.length_map, List.length_range]

theorem length_of_mem_squareRows {r : List Nat} (h : r ∈ squareRows size f) :
    r.length = size := by
  obtain ⟨i, -, rfl⟩ := List.mem_map.mp h
  rw [List.length_map, List.length_range]

theorem get?_of_rows_eq (h : m.rows = squareRows size f) {i j : Nat} (hi : i < size)
    (hj : j < size) : m.get? i j = some (f i j) := by
  unfold get?
  rw [h, squareRows, List.getElem?_map, List.getElem?_range hi]
  show ((List.range size).map (f i))[j]? = some (f i j)
  rw [List.getElem?_map, List.getElem?_range hj]
  rfl

theorem sum_flatten_squareRows :
    (squareRows size f).flatten.sum =
      ∑ i ∈ Finset.range size, ∑ j ∈ Finset.range size, f i j := by
  rw [List.sum_flatten, squareRows, List.map_map]
  rfl

end SquareRows

theorem rows_eq_squareRows (m : CorrelationMatrix) : m.rows = squareRows m.size m.cell := by
  refine List.ext_getElem length_squareRows.symm fun i hi _ => ?_
  have hrow : m.rows[i]? = some m.rows[i] := List.getElem?_eq_getElem hi
  have hlength : m.rows[i].length = m.size := length_of_getElem?_rows hrow
  refine List.ext_getElem ?_ fun j hj hj' => ?_
  · rw [hlength]
    exact (length_of_mem_squareRows (List.getElem_mem _)).symm
  · have hcell : m.get? i j = some m.rows[i][j] := by
      unfold get?
      rw [hrow]
      exact List.getElem?_eq_getElem hj
    simp only [squareRows, List.getElem_map, List.getElem_range]
    rw [cell, hcell, Option.getD_some]

theorem total_eq_sum (m : CorrelationMatrix) :
    m.total = ∑ i ∈ Finset.range m.size, ∑ j ∈ Finset.range m.size, m.cell i j := by
  rw [← sum_flatten_squareRows, ← m.rows_eq_squareRows]
  rfl

/-- Matrices with the same cells are equal. -/
theorem eq_of_get? (hsize : m.size = n.size) (h : ∀ i j, m.get? i j = n.get? i j) : m = n := by
  have hcell : m.cell = n.cell := by
    funext i j
    rw [cell, cell, h]
  have hrows : m.rows = n.rows := by
    rw [m.rows_eq_squareRows, n.rows_eq_squareRows, hsize, hcell]
  obtain ⟨_, _, _, _⟩ := m
  obtain ⟨_, _, _, _⟩ := n
  simp only at hrows
  subst hrows
  rfl

end CorrelationMatrix

end Readout
