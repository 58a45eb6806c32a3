import Readout.Proofs.Draw.Support
import Readout.Proofs.Matrix.Lines

/-!
# Paired draws

A draw along an axis fixes one choice, draws an index from the axis's line and puts both in the
order (first, last). `drawAlong_of_line` splits it into these parts; `IsDrawn` is what the draw has
to be, whatever the rounding. Most of it holds for any index in range (`isDrawn_drawOf`); that there
is an index exactly for a line with mass, and then that of a positive cell, is what sampling adds
(`isDrawn_of_line`).
-/

namespace Readout

namespace Axis

/-- The choice of a pair that the axis fixes. -/
def fixedSide : Axis → CorrelatedDraw → Nat
  | row _, d => d.first
  | column _, d => d.last

/-- The pair that an index of the axis's line makes; without one the fixed choice stands on both
sides. -/
def drawOf (axis : Axis) (cells : List Nat) (index : Option Nat) : CorrelatedDraw :=
  let other := index.getD axis.index
  ⟨(axis.pair other).1, (axis.pair other).2, cells.getD other 0, cells.sum, index.isNone⟩

theorem fixedSide_drawOf (axis : Axis) (cells : List Nat) (index : Option Nat) :
    axis.fixedSide (axis.drawOf cells index) = axis.index := by
  cases axis <;> rfl

theorem pair_index (axis : Axis) : axis.pair axis.index = (axis.index, axis.index) := by
  cases axis <;> rfl

end Axis

namespace CorrelationMatrix

/-- What a draw along an axis is: the fixed choice stands on its side and both are in range, the
weight is the cell of the pair and the total that of the line. A line with mass takes one word and
gives a positive cell; one without takes none and gives the cell on the diagonal. -/
structure IsDrawn (m : CorrelationMatrix) (axis : Axis) (s rest : WordStream)
    (d : CorrelatedDraw) : Prop where
  fixedSide_eq : axis.fixedSide d = axis.index
  first_lt : d.first < m.size
  last_lt : d.last < m.size
  get?_eq : m.get? d.first d.last = some d.weight
  cell_eq : m.rows.flatten[d.first * m.size + d.last]? = some d.weight
  lineTotal_eq : m.lineTotal axis = .ok d.lineTotal
  held_iff : d.held = true ↔ d.first = d.last
  fallback_iff : d.fallback = true ↔ d.lineTotal = 0
  of_mass : d.fallback = false → 0 < d.weight ∧ rest = s.drop 1
  of_fallback : d.fallback = true →
    d.first = axis.index ∧ d.last = axis.index ∧ d.weight = 0 ∧ rest = s

variable (α : Type) [Arithmetic α] {m : CorrelationMatrix} {axis : Axis} {cells : List Nat}
  {s : WordStream}

theorem drawAlong_of_le (h : m.size ≤ axis.index) :
    m.drawAlong α axis s =
      (.error (.indexOutOfRange axis.index m.size (.matrixLine axis.kind)), s) := by
  unfold drawAlong
  rw [line_of_le h]

theorem drawAlong_of_line (h : m.line axis = .ok cells) :
    m.drawAlong α axis s =
      (.ok (axis.drawOf cells (drawIndex α cells cells.sum s).1),
        (drawIndex α cells cells.sum s).2) := by
  unfold drawAlong
  rw [h]
  cases axis <;> rfl

/-- What holds of a draw whatever its index, once the index is in range. -/
theorem isDrawn_drawOf (h : m.line axis = .ok cells) {index : Option Nat} {rest : WordStream}
    (hother : index.getD axis.index < m.size) (hnone : index = none ↔ cells.sum = 0)
    (hmass : ∀ i, index = some i → 0 < cells.getD i 0 ∧ rest = s.drop 1)
    (hempty : index = none → rest = s) : m.IsDrawn axis s rest (axis.drawOf cells index) := by
  obtain ⟨hfirst, hlast⟩ := Axis.pair_lt (index_lt_of_line h) hother
  have hcell : m.get? (axis.drawOf cells index).first (axis.drawOf cells index).last =
      some (axis.drawOf cells index).weight := by
    have hlt : index.getD axis.index < cells.length := by
      rw [length_line h]
      exact hother
    show m.get? (axis.pair _).1 (axis.pair _).2 = some (cells.getD _ 0)
    rw [← getElem?_line h, List.getD_eq_getElem?_getD, List.getElem?_eq_getElem hlt]
    rfl
  have hfallback : (axis.drawOf cells index).fallback = true ↔ index = none :=
    Option.isNone_iff_eq_none
  refine ⟨axis.fixedSide_drawOf cells index, hfirst, hlast, hcell, ?_, lineTotal_of_line h, ?_,
    hfallback.trans hnone, ?_, ?_⟩
  · exact (getElem?_flatten hlast).trans hcell
  · exact beq_iff_eq
  · intro hf
    cases index with
    | none => cases hf
    | some i => exact hmass i rfl
  · intro hf
    have hindex := hfallback.mp hf
    have hzero : cells.getD axis.index 0 = 0 := by
      rw [List.getD_eq_getElem?_getD]
      cases hget : cells[axis.index]? with
      | none => rfl
      | some w =>
        have hall := List.sum_eq_zero_iff_forall_eq_nat.mp (hnone.mp hindex)
        exact hall w (List.mem_of_getElem? hget)
    subst hindex
    refine ⟨?_, ?_, hzero, hempty rfl⟩
    · show (axis.pair axis.index).1 = axis.index
      rw [axis.pair_index]
    · show (axis.pair axis.index).2 = axis.index
      rw [axis.pair_index]

theorem isDrawn_of_line (h : m.line axis = .ok cells) :
    m.IsDrawn axis s (drawIndex α cells cells.sum s).2
      (axis.drawOf cells (drawIndex α cells cells.sum s).1) := by
  have hnone := drawIndex_sum_eq_none_iff α cells s
  have hrest := snd_drawIndex α cells cells.sum s
  have hpos : ∀ i, (drawIndex α cells cells.sum s).1 = some i → ∃ w, cells[i]? = some w ∧ 0 < w :=
    fun i hi => pos_of_drawIndex α hi
  refine isDrawn_drawOf h ?_ hnone (fun i hi => ⟨?_, ?_⟩) fun hi => ?_
  · cases hindex : (drawIndex α cells cells.sum s).1 with
    | none => exact index_lt_of_line h
    | some i =>
      obtain ⟨w, hw, -⟩ := hpos i hindex
      rw [← length_line h]
      exact (List.getElem?_eq_some_iff.mp hw).1
  · obtain ⟨w, hw, hlt⟩ := hpos i hi
    rw [List.getD_eq_getElem?_getD, hw]
    exact hlt
  · have hsum : cells.sum ≠ 0 := fun hsum => by
      rw [hnone.mpr hsum] at hi
      cases hi
    rw [hrest, if_neg hsum]
  · rw [hrest, if_pos (hnone.mp hi)]

theorem exists_isDrawn (s : WordStream) (h : axis.index < m.size) :
    ∃ d rest, m.drawAlong α axis s = (.ok d, rest) ∧ m.IsDrawn axis s rest d := by
  obtain ⟨cells, hcells⟩ := line_of_lt h
  exact ⟨_, _, drawAlong_of_line α hcells, isDrawn_of_line α hcells⟩

/-- How many words a draw takes is decided by the total of its line alone. -/
theorem IsDrawn.rest_eq {rest : WordStream} {d : CorrelatedDraw} (h : m.IsDrawn axis s rest d) :
    rest = if d.lineTotal = 0 then s else s.drop 1 := by
  by_cases hzero : d.lineTotal = 0
  · rw [if_pos hzero]
    exact (h.of_fallback (h.fallback_iff.mpr hzero)).2.2.2
  · rw [if_neg hzero]
    have hmass : d.fallback = false := by
      rw [← Bool.not_eq_true, h.fallback_iff]
      exact hzero
    exact (h.of_mass hmass).2

theorem IsDrawn.exists_mass_iff {rest : WordStream} {d : CorrelatedDraw}
    (h : m.IsDrawn axis s rest d) :
    (∃ n, m.lineTotal axis = .ok n ∧ 0 < n) ↔ d.lineTotal ≠ 0 := by
  rw [h.lineTotal_eq]
  simp [Nat.pos_iff_ne_zero]

/-- **A draw keeps the fixed choice and weighs a cell of its line.** It fails exactly if the fixed
choice is out of range, and then no word is taken; else it is the draw that `IsDrawn` describes. -/
theorem drawAlong_draws_along (m : CorrelationMatrix) (axis : Axis) (s : WordStream) :
    ((∃ e, (m.drawAlong α axis s).1 = .error e) ↔ m.size ≤ axis.index) ∧
    (m.size ≤ axis.index → m.drawAlong α axis s =
      (.error (.indexOutOfRange axis.index m.size (.matrixLine axis.kind)), s)) ∧
    (axis.index < m.size →
      ∃ d rest, m.drawAlong α axis s = (.ok d, rest) ∧ m.IsDrawn axis s rest d) := by
  have hout : m.size ≤ axis.index → m.drawAlong α axis s =
      (.error (.indexOutOfRange axis.index m.size (.matrixLine axis.kind)), s) :=
    drawAlong_of_le α
  refine ⟨⟨fun ⟨e, he⟩ => ?_, fun h => ⟨_, congrArg Prod.fst (hout h)⟩⟩, hout, exists_isDrawn α s⟩
  by_contra hlt
  obtain ⟨d, rest, hdraw, -⟩ := exists_isDrawn α s (Nat.not_le.mp hlt)
  rw [hdraw] at he
  cases he

end CorrelationMatrix

end Readout
