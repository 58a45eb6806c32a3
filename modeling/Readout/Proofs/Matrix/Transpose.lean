import Readout.Proofs.Matrix.Cells
import Readout.Proofs.Matrix.PairedDraw

/-!
# Rows and columns change places

The transpose of a matrix has its columns for rows. An axis and the axis across it then fix the same
line, one read as a row and one as a column (`line_transpose`), so that the same word draws the same
pair, first and last choice exchanged (`drawAlong_transpose`). A matrix is its own transpose exactly
if the cells below the diagonal agree with those above it (`isSymmetric_iff_eq_transpose`).
-/

namespace Readout

/-- The axis that fixes the same index on the other side. -/
def Axis.crossed : Axis → Axis
  | row i => column i
  | column j => row j

theorem Axis.index_crossed (axis : Axis) : axis.crossed.index = axis.index := by cases axis <;> rfl

theorem Axis.pair_crossed (axis : Axis) (other : Nat) :
    axis.crossed.pair other = (axis.pair other).swap := by
  cases axis <;> rfl

/-- The second draw is the first one with both choices exchanged. -/
structure CorrelatedDraw.Mirrors (d e : CorrelatedDraw) : Prop where
  first_eq : e.first = d.last
  last_eq : e.last = d.first
  held_eq : e.held = d.held
  weight_eq : e.weight = d.weight
  lineTotal_eq : e.lineTotal = d.lineTotal
  fallback_eq : e.fallback = d.fallback

theorem Axis.mirrors_drawOf (axis : Axis) (cells : List Nat) (index : Option Nat) :
    (axis.drawOf cells index).Mirrors (axis.crossed.drawOf cells index) := by
  have hheld (a b : Nat) : (b == a) = (a == b) := BEq.comm
  cases axis with
  | row i => exact ⟨rfl, rfl, hheld _ _, rfl, rfl, rfl⟩
  | column j => exact ⟨rfl, rfl, hheld _ _, rfl, rfl, rfl⟩

namespace CorrelationMatrix

variable {m : CorrelationMatrix}

/-- The rows of the transpose. -/
def transposedRows (m : CorrelationMatrix) : List (List Nat) :=
  squareRows m.size fun i j => m.cell j i

theorem sum_transposedRows (m : CorrelationMatrix) : m.transposedRows.flatten.sum = m.total := by
  rw [transposedRows, sum_flatten_squareRows, total_eq_sum]
  exact Finset.sum_comm

/-- The matrix with rows and columns exchanged. -/
def transpose (m : CorrelationMatrix) : CorrelationMatrix where
  rows := m.transposedRows
  rows_ne_nil := by
    have hpos : 0 < m.size := List.length_pos_iff.mpr m.rows_ne_nil
    rw [← List.length_pos_iff, transposedRows, length_squareRows]
    exact hpos
  length_row r hr := by
    rw [transposedRows, length_squareRows]
    exact length_of_mem_squareRows hr
  total_le := by
    rw [sum_transposedRows]
    exact m.total_le

theorem size_transpose (m : CorrelationMatrix) : m.transpose.size = m.size := length_squareRows

theorem get?_transpose (m : CorrelationMatrix) (i j : Nat) :
    m.transpose.get? i j = m.get? j i := by
  by_cases h : i < m.size ∧ j < m.size
  · have hrows : m.transpose.rows = squareRows m.size fun i j => m.cell j i := rfl
    rw [get?_of_lt h.2 h.1]
    exact get?_of_rows_eq hrows h.1 h.2
  · have hout : m.transpose.size ≤ i ∨ m.transpose.size ≤ j := by
      rw [size_transpose]
      omega
    rw [get?_of_le hout, get?_of_le]
    omega

/-- A line of the matrix is a line of the transpose, a row of the one being a column of the
other. -/
theorem line_transpose {axis : Axis} {cells : List Nat} (h : m.line axis = .ok cells) :
    m.transpose.line axis.crossed = .ok cells := by
  have hlt : axis.crossed.index < m.transpose.size := by
    rw [axis.index_crossed, size_transpose]
    exact index_lt_of_line h
  obtain ⟨crossed, hcrossed⟩ := line_of_lt hlt
  rw [hcrossed]
  refine congrArg Except.ok (List.ext_getElem? fun other => ?_)
  rw [getElem?_line hcrossed, getElem?_line h, axis.pair_crossed, get?_transpose]
  rfl

theorem isSymmetric_iff :
    m.isSymmetric = true ↔ ∀ i < m.size, ∀ j < i, m.get? i j = m.get? j i := by
  simp [isSymmetric]

/-- It is enough to look below the diagonal: a cell above it is across from one below, and one on
it from itself. -/
theorem isSymmetric_iff_eq_transpose : m.isSymmetric = true ↔ m = m.transpose := by
  rw [isSymmetric_iff]
  constructor
  · intro h
    refine eq_of_get? m.size_transpose.symm fun i j => ?_
    rw [get?_transpose]
    by_cases hout : m.size ≤ i ∨ m.size ≤ j
    · rw [get?_of_le hout, get?_of_le hout.symm]
    · obtain ⟨hi, hj⟩ : i < m.size ∧ j < m.size := by omega
      rcases Nat.lt_trichotomy i j with hij | rfl | hij
      · exact (h j hj i hij).symm
      · rfl
      · exact h i hi j hij
  · intro h i _ j _
    rw [← get?_transpose, ← h]

variable (α : Type) [Arithmetic α]

theorem drawAlong_transpose {axis : Axis} (s : WordStream) (h : axis.index < m.size) :
    ∃ d e rest, m.drawAlong α axis s = (.ok d, rest) ∧
      m.transpose.drawAlong α axis.crossed s = (.ok e, rest) ∧ d.Mirrors e := by
  obtain ⟨cells, hcells⟩ := line_of_lt h
  exact ⟨_, _, _, drawAlong_of_line α hcells, drawAlong_of_line α (line_transpose hcells),
    axis.mirrors_drawOf cells _⟩

/-- **Exchanging rows and columns exchanges first and last choice.** The transposed rows are a
matrix again. Along an axis in range, a draw and the draw from the transpose along the axis across
take the same words and mirror each other. A matrix counts as symmetric, by its cells below the
diagonal alone, exactly if it is its own transpose; the two axes of an index then mirror each other
in the matrix itself. -/
theorem drawAlong_mirrors_transpose (m : CorrelationMatrix) :
    ∃ t, ofRows m.transposedRows = .ok t ∧
      (t.size = m.size ∧ ∀ i j, t.get? i j = m.get? j i) ∧
      (∀ axis s, axis.index < m.size → ∃ d e rest, m.drawAlong α axis s = (.ok d, rest) ∧
        t.drawAlong α axis.crossed s = (.ok e, rest) ∧ d.Mirrors e) ∧
      (m.isSymmetric = true ↔ ∀ i < m.size, ∀ j < i, m.get? i j = m.get? j i) ∧
      (m.isSymmetric = true ↔ m = t) ∧
      (m.isSymmetric = true → ∀ axis s, axis.index < m.size → ∃ d e rest,
        m.drawAlong α axis s = (.ok d, rest) ∧
        m.drawAlong α axis.crossed s = (.ok e, rest) ∧ d.Mirrors e) := by
  refine ⟨m.transpose, ofRows_eq_ok_iff.mpr rfl, ⟨m.size_transpose, m.get?_transpose⟩,
    fun axis s => drawAlong_transpose α s, isSymmetric_iff, isSymmetric_iff_eq_transpose,
    fun hsymmetric axis s haxis => ?_⟩
  obtain ⟨d, e, rest, hd, he, hmirrors⟩ := drawAlong_transpose α s haxis
  rw [← isSymmetric_iff_eq_transpose.mp hsymmetric] at he
  exact ⟨d, e, rest, hd, he, hmirrors⟩

/-- Counts whose second row is empty and whose second column is not. -/
def oneSided : CorrelationMatrix := ⟨[[4, 1], [0, 0]], by decide, by decide, by decide⟩

/-- Counts that agree across the diagonal. -/
def twoSided : CorrelationMatrix := ⟨[[0, 5], [5, 2]], by decide, by decide, by decide⟩

/-- The empty second row falls back as the second column of the transpose does. -/
theorem oneSided_mirrors :
    (Axis.row 1).index < oneSided.size ∧ twoSided.isSymmetric = true ∧
      (∃ t, ofRows [[4, 0], [1, 0]] = .ok t ∧ ∃ d e rest,
        oneSided.drawAlong Rat (.row 1) (.splitMix 7) = (.ok d, rest) ∧
        t.drawAlong Rat (.column 1) (.splitMix 7) = (.ok e, rest) ∧ d.Mirrors e) ∧
      ∃ d e rest, twoSided.drawAlong Rat (.row 1) (.splitMix 7) = (.ok d, rest) ∧
        twoSided.drawAlong Rat (.column 1) (.splitMix 7) = (.ok e, rest) ∧ d.Mirrors e := by
  have haxis : (Axis.row 1).index < oneSided.size := by decide
  have hsymmetric : twoSided.isSymmetric = true := by decide
  obtain ⟨t, ht, -, hdraw, -⟩ := drawAlong_mirrors_transpose Rat oneSided
  obtain ⟨-, -, -, -, -, -, hboth⟩ := drawAlong_mirrors_transpose Rat twoSided
  exact ⟨haxis, hsymmetric, ⟨t, ht, hdraw (.row 1) (.splitMix 7) haxis⟩,
    hboth hsymmetric (.row 1) (.splitMix 7) (by decide)⟩

end CorrelationMatrix

end Readout
