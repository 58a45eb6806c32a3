import Readout.Arithmetic
import Readout.Json.Basic
import Readout.Naturals

/-!
# JSON numbers

A numeral is a sign, whole digits without needless zeros, and possibly a fraction and an exponent.
One too large for a double is refused. Its size is judged by its leading digits, as many as fit a
word, times the power of ten that stands behind them, computed in doubles.
-/

namespace Readout.Json

/-- The parts of a written number. -/
structure Numeral where
  negative : Bool
  whole : List Nat
  fraction : List Nat
  exponent : Int
  /-- Whether it is written without a fraction and without an exponent. -/
  plain : Bool
  deriving DecidableEq

/-- The value of a decimal digit. -/
def digit? (c : Char) : Option Nat := if c.isDigit then some (c.toNat - '0'.toNat) else none

/-- The digits at the front of a text and what stands behind them. -/
def spanDigits : List Char → List Nat × List Char
  | [] => ([], [])
  | c :: rest =>
    match digit? c with
    | none => ([], c :: rest)
    | some d =>
      let (ds, rest) := spanDigits rest
      (d :: ds, rest)

/-- The number that digits stand for. -/
def ofDigits (digits : List Nat) : Nat := digits.foldl (fun n d => 10 * n + d) 0

/-- Appends digits to a number while the result fits a word; with the number of digits left out. -/
def absorb (n : Nat) : List Nat → Nat × Nat
  | [] => (n, 0)
  | d :: rest => if 10 * n + d ≤ maxWord then absorb (10 * n + d) rest else (n, rest.length + 1)

/-- Reads the digits behind a point; without a point there are none. -/
def readFraction : List Char → Option (List Nat × Bool × List Char)
  | '.' :: rest =>
    match spanDigits rest with
    | ([], _) => none
    | (digits, rest) => some (digits, true, rest)
  | rest => some ([], false, rest)

/-- Reads a sign and the digits of an exponent. -/
def readSignedDigits (s : List Char) : Option (Int × List Char) :=
  let (negative, s) : Bool × List Char :=
    match s with
    | '+' :: rest => (false, rest)
    | '-' :: rest => (true, rest)
    | rest => (false, rest)
  match spanDigits s with
  | ([], _) => none
  | (digits, rest) =>
    let size : Int := ofDigits digits
    some (if negative then -size else size, rest)

/-- Reads an exponent; without one it is zero. -/
def readExponent : List Char → Option (Int × Bool × List Char)
  | c :: rest =>
    if c = 'e' ∨ c = 'E' then
      (readSignedDigits rest).map fun (exponent, rest) => (exponent, true, rest)
    else some (0, false, c :: rest)
  | [] => some (0, false, [])

/-- Reads whole digits. A zero stands alone. -/
def readWhole (s : List Char) : Option (List Nat × List Char) :=
  match spanDigits s with
  | ([], _) => none
  | (0 :: _ :: _, _) => none
  | found => some found

/-- Reads a number. -/
def readNumeral (s : List Char) : Option (Numeral × List Char) := do
  let (negative, s) : Bool × List Char :=
    match s with
    | '-' :: rest => (true, rest)
    | rest => (false, rest)
  let (whole, s) ← readWhole s
  let (fraction, hasFraction, s) ← readFraction s
  let (exponent, hasExponent, s) ← readExponent s
  some (⟨negative, whole, fraction, exponent, !hasFraction && !hasExponent⟩, s)

/-- Whether a number of this size is too large for a double. -/
def Numeral.isTooLarge (n : Numeral) : Bool :=
  let (leading, beyond) := absorb 0 n.whole
  let (leading, unread) := absorb leading n.fraction
  let power : Int := beyond - (n.fraction.length - unread : Nat) + n.exponent
  if leading = 0 ∨ power < 0 then false
  else if 308 < power then true
  else (Float.ofNat leading * Float.ofNat (10 ^ power.toNat)).isInf

/-- The value of a number that is not too large. -/
def Numeral.toJson? (n : Numeral) : Option Json :=
  if n.plain ∧ ¬ n.negative ∧ ofDigits n.whole ≤ maxWord then some (.count (ofDigits n.whole))
  else if n.isTooLarge then none
  else some .number

end Readout.Json
