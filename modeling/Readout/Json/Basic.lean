import Readout.Word

/-!
# JSON values

A document is kept as written: members stand in the order of the text, repeated names included. Of
numbers only this matters, whether one is written as a plain whole number that fits a word.
-/

namespace Readout

/-- A JSON value. -/
inductive Json
  | null
  | bool (value : Bool)
  /-- A number written as digits alone whose value fits a word. -/
  | count (value : Nat)
  /-- Any other number. -/
  | number
  | text (value : String)
  | array (items : List Json)
  | object (members : List (String × Json))

namespace Json

/-- The value of a count. -/
def count? : Json → Option Nat
  | count n => some n
  | _ => none

/-- The members of an object, each value read by `read?`; `none` if one of them is refused, or if
this is no object. -/
def membersBy? {β : Type} (read? : Json → Option β) : Json → Option (List (String × β))
  | object members => members.mapM fun m => (read? m.2).map fun value => (m.1, value)
  | _ => none

end Json

end Readout
