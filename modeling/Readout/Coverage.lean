import Readout.Error

/-!
# Coverage of a bitstring by ranges

The fields of a decoder have to cover every position of a bitstring exactly once. `checkCoverage`
goes through the ranges by their starts with a cursor at the first position not covered yet;
`Tiles` is the rule itself, position by position.
-/

namespace Readout

/-- Every position below `width` lies in exactly one of the ranges, and no range reaches beyond. -/
def Tiles (width : Nat) (ranges : List BitRange) : Prop :=
  (∀ p < width, (ranges.filter fun r => r.start ≤ p ∧ p < r.start + r.width).length = 1) ∧
    ∀ r ∈ ranges, ∀ p, r.start ≤ p → p < r.start + r.width → p < width

/-- Moves the cursor over ranges in ascending order; each has to start where the one before it
stops. -/
def sweep (cursor : Nat) : List BitRange → Except BindingFault Nat
  | [] => .ok cursor
  | r :: rest =>
    if r.start < cursor then .error (.overlap r)
    else if cursor < r.start then .error (.unbound cursor r.start)
    else sweep r.stop rest

/-- Checks that the ranges cover `width` positions exactly once, and names the first fault. -/
def checkCoverage (width : Nat) (ranges : List BitRange) : Except BindingFault Unit :=
  if width = 0 then .error .noWidth
  else
    match ranges.find? (fun r => r.width = 0) with
    | some r => .error (.emptyRange r.start)
    | none =>
      match sweep 0 (ranges.mergeSort fun r s => (compare r s).isLE) with
      | .error fault => .error fault
      | .ok covered =>
        if width < covered then .error (.overrun covered width)
        else if covered < width then .error (.unbound covered width)
        else .ok ()

end Readout
