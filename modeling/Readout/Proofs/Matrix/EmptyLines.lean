import Mathlib.Order.Bounds.Basic
import Readout.Proofs.Lists
import Readout.Proofs.Matrix.PairedDraw
import Readout.Proofs.Matrix.Sums

/-!
# Lines without counts

A draw along an axis falls back exactly if the line of the axis has no counts
(`exists_drawAlong_fallback_iff`). The check for such lines goes through the indices from the first
one on and looks at the row before the column, so that it stops at the first axis in this order that
has no counts (`isFirstEmpty_of_emptyLine?`). It therefore accepts exactly the matrices on which no
draw falls back.
-/

namespace Readout

namespace CorrelationMatrix

variable {m : CorrelationMatrix} {axis : Axis} {i j : Nat} {kind : LineKind}

/-! ## The first empty line -/

theorem lineTotal_eq_zero_iff (axis : Axis) (h : axis.index < m.size) :
    m.lineTotal axis = .ok 0 ↔ m.lineSum axis = 0 := by
  rw [lineTotal_of_lt h, Except.ok.injEq]

theorem rowTotal_eq_zero_iff (h : i < m.size) :
    m.rowTotal i = .ok 0 ↔ m.lineSum (.row i) = 0 := lineTotal_eq_zero_iff (.row i) h

theorem columnTotal_eq_zero_iff (h : i < m.size) :
    m.columnTotal i = .ok 0 ↔ m.lineSum (.column i) = 0 := lineTotal_eq_zero_iff (.column i) h

/-- The axis of the first empty line: no smaller index has one, and of one index the row comes
before the column. -/
structure IsFirstEmpty (m : CorrelationMatrix) (axis : Axis) : Prop where
  isLeast : IsLeast {i | i < m.size ∧ (m.rowTotal i = .ok 0 ∨ m.columnTotal i = .ok 0)} axis.index
  kind_eq_row_iff : axis.kind = .row ↔ m.rowTotal axis.index = .ok 0
  lineTotal_eq : m.lineTotal axis = .ok 0

/-- The empty line with an index, the row before the column. -/
def emptyLineAt? (m : CorrelationMatrix) (i : Nat) : Option (LineKind × Nat) :=
  if (m.rows.getD i []).sum = 0 then some (.row, i)
  else if (m.cellsOfColumn i).sum = 0 then some (.column, i)
  else none

theorem emptyLine?_eq (m : CorrelationMatrix) :
    m.emptyLine? = (List.range m.size).findSome? m.emptyLineAt? := rfl

theorem emptyLineAt?_eq (h : i < m.size) : m.emptyLineAt? i =
    if m.lineSum (.row i) = 0 then some (.row, i)
    else if m.lineSum (.column i) = 0 then some (.column, i)
    else none := by
  obtain ⟨row, hrow⟩ := line_of_lt (show (Axis.row i).index < m.size from h)
  have hcells : m.rows.getD i [] = row := by
    rw [List.getD_eq_getElem?_getD, rows_of_row hrow]
    rfl
  have hcolumn : m.line (.column i) = .ok (m.cellsOfColumn i) := if_pos h
  rw [emptyLineAt?, hcells, sum_line hrow, sum_line hcolumn]

theorem emptyLineAt?_eq_none_iff (h : i < m.size) : m.emptyLineAt? i = none ↔
    ¬ (m.rowTotal i = .ok 0 ∨ m.columnTotal i = .ok 0) := by
  rw [emptyLineAt?_eq h, rowTotal_eq_zero_iff h, columnTotal_eq_zero_iff h]
  split
  · simp [*]
  · split <;> simp [*]

/-- What is found at an index is the axis of an empty line; its kind says whether it is the row. -/
theorem exists_axis_of_emptyLineAt? (h : i < m.size) (hfound : m.emptyLineAt? i = some (kind, j)) :
    ∃ axis : Axis, axis.kind = kind ∧ axis.index = i ∧ j = i ∧ m.lineTotal axis = .ok 0 ∧
      (axis.kind = .row ↔ m.rowTotal i = .ok 0) := by
  rw [emptyLineAt?_eq h] at hfound
  split at hfound
  · rename_i hzero
    obtain ⟨rfl, rfl⟩ := Prod.mk.inj (Option.some.inj hfound)
    have htotal := (rowTotal_eq_zero_iff h).mpr hzero
    exact ⟨.row i, rfl, rfl, rfl, htotal, iff_of_true rfl htotal⟩
  · rename_i hmass
    split at hfound
    · rename_i hzero
      obtain ⟨rfl, rfl⟩ := Prod.mk.inj (Option.some.inj hfound)
      have htotal := (columnTotal_eq_zero_iff h).mpr hzero
      exact ⟨.column i, rfl, rfl, rfl, htotal,
        iff_of_false nofun (mt (rowTotal_eq_zero_iff h).mp hmass)⟩
    · cases hfound

theorem isFirstEmpty_of_emptyLine? (h : m.emptyLine? = some (kind, i)) :
    ∃ axis : Axis, axis.kind = kind ∧ axis.index = i ∧ m.IsFirstEmpty axis := by
  rw [emptyLine?_eq] at h
  obtain ⟨first, hlt, hfound, hbefore⟩ := exists_of_findSome?_range h
  obtain ⟨axis, hkind, hindex, rfl, htotal, hrow⟩ := exists_axis_of_emptyLineAt? hlt hfound
  subst hindex
  have hempty : m.rowTotal axis.index = .ok 0 ∨ m.columnTotal axis.index = .ok 0 := by
    cases axis with
    | row _ => exact .inl htotal
    | column _ => exact .inr htotal
  refine ⟨axis, hkind, rfl, ⟨⟨hlt, hempty⟩, fun other hother => ?_⟩, hrow, htotal⟩
  by_contra hsmaller
  exact (emptyLineAt?_eq_none_iff hother.1).mp (hbefore other (Nat.not_le.mp hsmaller)) hother.2

theorem emptyLine?_eq_none_iff :
    m.emptyLine? = none ↔ ∀ axis : Axis, axis.index < m.size → m.lineTotal axis ≠ .ok 0 := by
  rw [emptyLine?_eq, List.findSome?_eq_none_iff]
  simp only [List.mem_range]
  constructor
  · intro h axis hlt htotal
    have hnone := (emptyLineAt?_eq_none_iff hlt).mp (h axis.index hlt)
    cases axis with
    | row _ => exact hnone (.inl htotal)
    | column _ => exact hnone (.inr htotal)
  · intro h i hlt
    rw [emptyLineAt?_eq_none_iff hlt]
    rintro (hrow | hcolumn)
    · exact h (.row i) hlt hrow
    · exact h (.column i) hlt hcolumn

theorem checkPositiveLines_eq_ok_iff : m.checkPositiveLines = .ok () ↔ m.emptyLine? = none := by
  unfold checkPositiveLines
  split <;> simp [*]

theorem checkPositiveLines_eq_error_iff {e : Error} : m.checkPositiveLines = .error e ↔
    ∃ kind i, m.emptyLine? = some (kind, i) ∧ e = .invalidMatrix (.emptyLine kind i) := by
  unfold checkPositiveLines
  split <;> simp [*, eq_comm]

/-! ## Draws that fall back -/

variable (α : Type) [Arithmetic α]

/-- A draw along an axis in range falls back exactly if its line has no counts. -/
theorem exists_drawAlong_fallback_iff (h : axis.index < m.size) (s : WordStream) :
    ∃ d rest, m.drawAlong α axis s = (.ok d, rest) ∧
      (d.fallback = true ↔ m.lineTotal axis = .ok 0) := by
  obtain ⟨d, rest, hdraw, hdrawn⟩ := exists_isDrawn α s h
  refine ⟨d, rest, hdraw, ?_⟩
  rw [hdrawn.fallback_iff, hdrawn.lineTotal_eq, Except.ok.injEq]

/-- The words do not matter: along an axis in range either every draw falls back or none does. -/
theorem forall_drawAlong_not_fallback_iff (h : axis.index < m.size) :
    (∀ s, ∃ d rest, m.drawAlong α axis s = (.ok d, rest) ∧ d.fallback = false) ↔
      m.lineTotal axis ≠ .ok 0 := by
  constructor
  · intro hdraws htotal
    obtain ⟨d, rest, hdraw, hmass⟩ := hdraws (.splitMix 0)
    obtain ⟨d', rest', hdraw', hfallback⟩ := exists_drawAlong_fallback_iff α h (.splitMix 0)
    rw [hdraw] at hdraw'
    obtain rfl := Except.ok.inj (Prod.mk.inj hdraw').1
    rw [hfallback.mpr htotal] at hmass
    cases hmass
  · intro htotal s
    obtain ⟨d, rest, hdraw, hfallback⟩ := exists_drawAlong_fallback_iff α h s
    exact ⟨d, rest, hdraw, Bool.eq_false_iff.mpr (mt hfallback.mp htotal)⟩

/-- **Positive lines are those that no draw falls back on.** The check for lines without counts
accepts a matrix exactly if no draw along an axis in range falls back. It refuses with the first
empty line, the least index and there the row before the column, and along its axis every draw falls
back. -/
theorem checkPositiveLines_iff_no_fallback (m : CorrelationMatrix) :
    (m.checkPositiveLines = .ok () ↔ ∀ axis : Axis, axis.index < m.size → ∀ s, ∃ d rest,
      m.drawAlong α axis s = (.ok d, rest) ∧ d.fallback = false) ∧
    ∀ e, m.checkPositiveLines = .error e → ∃ axis : Axis,
      e = .invalidMatrix (.emptyLine axis.kind axis.index) ∧
      e.message = s!"Invalid Matrix: {axis.kind.name} {axis.index} has no recorded counts" ∧
      m.IsFirstEmpty axis ∧
      ∀ s, ∃ d rest, m.drawAlong α axis s = (.ok d, rest) ∧ d.fallback = true := by
  refine ⟨?_, fun e he => ?_⟩
  · rw [checkPositiveLines_eq_ok_iff, emptyLine?_eq_none_iff]
    exact forall₂_congr fun axis hlt => (forall_drawAlong_not_fallback_iff α hlt).symm
  · obtain ⟨kind, i, hfirst, rfl⟩ := checkPositiveLines_eq_error_iff.mp he
    obtain ⟨axis, rfl, rfl, hempty⟩ := isFirstEmpty_of_emptyLine? hfirst
    refine ⟨axis, rfl, rfl, hempty, fun s => ?_⟩
    obtain ⟨d, rest, hdraw, hfallback⟩ := exists_drawAlong_fallback_iff α hempty.isLeast.1.1 s
    exact ⟨d, rest, hdraw, hfallback.mpr hempty.lineTotal_eq⟩

/-- Counts in one corner only: the first column and the second row are empty. -/
def oneCorner : CorrelationMatrix := ⟨[[0, 3], [0, 0]], by decide, by decide, by decide⟩

/-- The column is named, since its index is the smaller one, and draws along it fall back. -/
theorem oneCorner_checked :
    oneCorner.checkPositiveLines = .error (.invalidMatrix (.emptyLine .column 0)) ∧
      oneCorner.IsFirstEmpty (.column 0) ∧
      ∀ s, ∃ d rest, oneCorner.drawAlong Rat (.column 0) s = (.ok d, rest) ∧
        d.fallback = true := by
  have hcheck : oneCorner.checkPositiveLines =
      .error (.invalidMatrix (.emptyLine .column 0)) := by decide
  obtain ⟨-, hrefused⟩ := checkPositiveLines_iff_no_fallback Rat oneCorner
  obtain ⟨axis, he, -, hfirst, hdraws⟩ := hrefused _ hcheck
  cases axis with
  | row _ => cases he
  | column _ =>
    cases he
    exact ⟨hcheck, hfirst, hdraws⟩

end CorrelationMatrix

end Readout
