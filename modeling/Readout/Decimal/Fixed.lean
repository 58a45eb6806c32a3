import Readout.Naturals

/-!
# Decimals with a fixed number of places

A double is read as a sign, a whole number and a power of two, and written with a given number of
decimals: the exact value rounded once, a tie going to the even neighbour.
-/

namespace Readout.Decimal

/-- A double by its parts; a finite one is `significand * 2 ^ exponent` with its sign. -/
inductive Parts
  | nan
  | infinite (negative : Bool)
  | finite (negative : Bool) (significand : Nat) (exponent : Int)
  deriving DecidableEq

/-- Reads the parts off the 64 bits of a double. -/
def Parts.ofBits (bits : UInt64) : Parts :=
  let negative := bits >>> 63 == 1
  let field := (bits >>> 52 &&& 0x7FF).toNat
  let fraction := (bits &&& 0xFFFFFFFFFFFFF).toNat
  if field = 0x7FF then
    if fraction = 0 then .infinite negative else .nan
  else if field = 0 then .finite negative fraction (-1074)
  else .finite negative (fraction + 2 ^ 52) (field - 1075)

/-- The whole number nearest to `num / den`, the even one of two that are equally near. -/
def roundDiv (num den : Nat) : Nat :=
  let q := num / den
  let r := num % den
  if 2 * r < den ∨ (2 * r = den ∧ q % 2 = 0) then q else q + 1

/-- `significand * 2 ^ exponent` in units of the last of `places` decimals. -/
def scaled (places significand : Nat) (exponent : Int) : Nat :=
  match exponent with
  | .ofNat e => significand * 2 ^ e * 10 ^ places
  | .negSucc e => roundDiv (significand * 10 ^ places) (2 ^ (e + 1))

/-- A whole number of units of the last place, with the point set. -/
def withPoint (places units : Nat) : String :=
  let whole := toString (units / 10 ^ places)
  if places = 0 then whole
  else
    let digits := (Nat.toDigits 10 (units % 10 ^ places))
    whole ++ "." ++ String.ofList (List.replicate (places - digits.length) '0' ++ digits)

/-- The text of a double with `places` decimals. The sign of a negative zero is kept. -/
def fixed (places : Nat) (x : Float) : String :=
  match Parts.ofBits x.toBits with
  | .nan => "NaN"
  | .infinite negative => if negative then "-inf" else "inf"
  | .finite negative significand exponent =>
    (if negative then "-" else "") ++ withPoint places (scaled places significand exponent)

end Readout.Decimal
