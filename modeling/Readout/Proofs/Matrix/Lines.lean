import Mathlib.Tactic.ByContra
import Readout.CorrelationMatrix

/-!
# Lines of joint counts

A cell is reached in three ways: through its row, through its column, and by its place when all rows
stand one after the other. `Axis.pair` puts a fixed choice and the other one in the order (first,
last); with it rows and columns need one lemma and not two:

* `line_of_lt` and `line_of_le` say which lines there are;
* `getElem?_line` says that the cells of a line are those of the matrix;
* `getElem?_flatten` finds a cell among all of them.
-/

namespace Readout

/-- The choices (first, last), of which the axis fixes one and `other` is the other. -/
def Axis.pair : Axis → (other : Nat) → Nat × Nat
  | row i, other => (i, other)
  | column j, other => (other, j)

/-- Both choices of a pair are in range if the fixed one and the other are. -/
theorem Axis.pair_lt {axis : Axis} {n other : Nat} (hindex : axis.index < n) (hother : other < n) :
    (axis.pair other).1 < n ∧ (axis.pair other).2 < n := by
  cases axis with
  | row i => exact ⟨hindex, hother⟩
  | column j => exact ⟨hother, hindex⟩

namespace CorrelationMatrix

variable {m : CorrelationMatrix} {axis : Axis} {cells : List Nat}

/-- The sum of the row or the column of an axis. -/
def lineTotal (m : CorrelationMatrix) : Axis → Except Error Nat
  | .row i => m.rowTotal i
  | .column j => m.columnTotal j

/-- The matrices are those that `ofRows` returns. -/
theorem ofRows_eq_ok_iff {rows : List (List Nat)} : ofRows rows = .ok m ↔ m.rows = rows := by
  constructor
  · intro h
    unfold ofRows at h
    split at h
    · cases h
    · split at h
      · cases h
      · split at h
        · rw [← Except.ok.inj h]
        · cases h
  · rintro rfl
    have hsquare : m.rows.zipIdx.find? (fun r => r.1.length ≠ m.rows.length) = none := by
      rw [List.find?_eq_none]
      intro r hr
      have hlength := m.length_row r.1 (List.mem_of_getElem? (List.mem_zipIdx_iff_getElem?.mp hr))
      simpa using hlength
    unfold ofRows
    rw [dif_neg m.rows_ne_nil]
    split
    · rename_i hfind
      rw [hsquare] at hfind
      cases hfind
    · rw [dif_pos m.total_le]

theorem length_of_getElem?_rows {i : Nat} (h : m.rows[i]? = some cells) : cells.length = m.size :=
  m.length_row cells (List.mem_of_getElem? h)

/-! ## Which lines there are -/

theorem line_of_le (h : m.size ≤ axis.index) :
    m.line axis = .error (.indexOutOfRange axis.index m.size (.matrixLine axis.kind)) := by
  cases axis with
  | row i =>
    have hnone : m.rows[i]? = none := List.getElem?_eq_none h
    show m.row i = _
    unfold row
    rw [hnone]
    rfl
  | column j =>
    have hlt : ¬ j < m.size := Nat.not_lt.mpr h
    show m.column j = _
    unfold column
    rw [if_neg hlt]
    rfl

theorem line_of_lt (h : axis.index < m.size) : ∃ cells, m.line axis = .ok cells := by
  cases axis with
  | row i =>
    have hsome : m.rows[i]? = some m.rows[i] := List.getElem?_eq_getElem h
    refine ⟨m.rows[i], ?_⟩
    show m.row i = _
    unfold row
    rw [hsome]
  | column j => exact ⟨m.cellsOfColumn j, if_pos h⟩

theorem index_lt_of_line (h : m.line axis = .ok cells) : axis.index < m.size := by
  by_contra hn
  rw [line_of_le (Nat.not_lt.mp hn)] at h
  cases h

theorem rows_of_row {i : Nat} (h : m.line (.row i) = .ok cells) : m.rows[i]? = some cells := by
  have hrow : m.row i = .ok cells := h
  unfold row at hrow
  split at hrow
  · rename_i found hfound
    rw [hfound, Except.ok.inj hrow]
  · cases hrow

theorem eq_cellsOfColumn {j : Nat} (h : m.line (.column j) = .ok cells) :
    cells = m.cellsOfColumn j := by
  have hcolumn : m.column j = .ok cells := h
  have hj : j < m.size := index_lt_of_line h
  unfold column at hcolumn
  rw [if_pos hj] at hcolumn
  exact (Except.ok.inj hcolumn).symm

theorem lineTotal_eq_map (m : CorrelationMatrix) (axis : Axis) :
    m.lineTotal axis = (m.line axis).map List.sum := by
  cases axis <;> rfl

theorem lineTotal_of_line (h : m.line axis = .ok cells) : m.lineTotal axis = .ok cells.sum := by
  rw [lineTotal_eq_map, h]
  rfl

theorem lineTotal_of_le (h : m.size ≤ axis.index) :
    m.lineTotal axis =
      .error (.indexOutOfRange axis.index m.size (.matrixLine axis.kind)) := by
  rw [lineTotal_eq_map, line_of_le h]
  rfl

/-! ## What stands in a line -/

theorem length_line (h : m.line axis = .ok cells) : cells.length = m.size := by
  cases axis with
  | row i => exact length_of_getElem?_rows (rows_of_row h)
  | column j =>
    rw [eq_cellsOfColumn h]
    exact List.length_map _

/-- A cell of a line is the cell of the matrix at the pair that the axis makes of it. -/
theorem getElem?_line (h : m.line axis = .ok cells) (other : Nat) :
    cells[other]? = m.get? (axis.pair other).1 (axis.pair other).2 := by
  cases axis with
  | row i =>
    show cells[other]? = m.get? i other
    simp [get?, rows_of_row h]
  | column j =>
    show cells[other]? = m.get? other j
    rw [eq_cellsOfColumn h, cellsOfColumn, List.getElem?_map]
    cases hrow : m.rows[other]? with
    | none => simp [get?, hrow]
    | some r =>
      have hj : j < r.length := by
        rw [length_of_getElem?_rows hrow]
        exact index_lt_of_line h
      simp [get?, hrow, hj]

theorem getElem?_flatten_of_length {rows : List (List Nat)} {n i j : Nat}
    (hlength : ∀ r ∈ rows, r.length = n) (hj : j < n) :
    rows.flatten[i * n + j]? = (rows[i]?).bind (·[j]?) := by
  induction rows generalizing i with
  | nil => rfl
  | cons r rows ih =>
    have hr : r.length = n := hlength r List.mem_cons_self
    rw [List.flatten_cons]
    cases i with
    | zero =>
      rw [List.getElem?_append_left (by omega), Nat.zero_mul, Nat.zero_add]
      rfl
    | succ i =>
      have hplace : (i + 1) * n + j - r.length = i * n + j := by
        rw [Nat.succ_mul, hr]
        omega
      rw [List.getElem?_append_right (by rw [Nat.succ_mul]; omega), hplace,
        ih fun r hr => hlength r (.tail _ hr)]
      rfl

/-- With the rows one after the other, `size` cells to each, the cell of row `i` and column `j` is
number `i * size + j`. -/
theorem getElem?_flatten {i j : Nat} (hj : j < m.size) :
    m.rows.flatten[i * m.size + j]? = m.get? i j :=
  getElem?_flatten_of_length m.length_row hj

end CorrelationMatrix

end Readout
