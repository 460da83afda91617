import Stylus.Number.Binary

/-!
# Reading decimal numbers

Two readings of decimal text are in use.

* `scaled` — the reading of numbers in documents.  The leading digits are kept as a 64-bit whole
  number, digits that no longer fit only move the decimal point, and the whole number is multiplied
  or divided once by a power of ten.  A number beyond the largest finite one is refused.
* `exact` — the reading of settings and of measured values: the number nearest to the decimal.
-/

set_option autoImplicit false

namespace Stylus
namespace Number

/-- Ten to the power `n`, to the nearest number. -/
def powerOfTen (n : Nat) : Float :=
  Float.ofScientific 1 false n

/-- The number nearest to `±digits · 10^exponent`.  Exponents beyond the range of numbers are cut
off, so that the power of ten stays small. -/
def exact (negative : Bool) (digits : Nat) (exponent : Int) : Float :=
  let size : Int := (Nat.toDigits 10 digits).length
  let magnitude :=
    if digits = 0 then 0.0
    else if 400 < exponent + size then Float.ofScientific 1 false 400
    else if exponent + size < -400 then 0.0
    else Float.ofScientific digits (decide (exponent < 0)) exponent.natAbs
  if negative then -magnitude else magnitude

namespace Scaled

/-- The largest whole number that the leading digits may form. -/
def capacity : Nat := UInt64.size - 1

/-- The largest exponent that is counted; beyond it a number is out of range or zero. -/
def exponentCapacity : Nat := UInt32.size / 2 - 1

/-- `±significand · 10^exponent`, scaled in one multiplication or division where the power of ten
is a number, and by steps of `10^308` towards zero; `none` beyond the largest finite number. -/
def scale (significand : Float) : Nat → Int → Option Float
  | 0, _ => some 0.0
  | steps + 1, exponent =>
    if exponent.natAbs ≤ 308 then
      if 0 ≤ exponent then
        let product := significand * powerOfTen exponent.natAbs
        if (Binary.ofFloat product).isFinite then some product else none
      else
        some (significand / powerOfTen exponent.natAbs)
    else if significand == 0.0 then some significand
    else if 0 ≤ exponent then none
    else scale (significand / powerOfTen 308) steps (exponent + 308)

/-- The number `±significand · 10^exponent`.  Four steps of `10^308` make any significand zero. -/
def number (negative : Bool) (significand : Nat) (exponent : Int) : Option Float :=
  (scale (Float.ofNat significand) 5 exponent).map fun x => if negative then -x else x

/-- Leading digits taken into the significand, and how many digits were left over. -/
def takeWhole : Nat → List Nat → Nat × Nat
  | significand, [] => (significand, 0)
  | significand, d :: rest =>
    if capacity < significand * 10 + d then (significand, rest.length + 1)
    else takeWhole (significand * 10 + d) rest

/-- Digits after the point taken into the significand, and how many were taken. -/
def takePlaces : Nat → List Nat → Nat × Nat
  | significand, [] => (significand, 0)
  | significand, d :: rest =>
    if capacity < significand * 10 + d then (significand, 0)
    else
      let (s, places) := takePlaces (significand * 10 + d) rest
      (s, places + 1)

/-- The value of a digit string. -/
def valueOf (digits : List Nat) : Nat :=
  digits.foldl (fun n d => n * 10 + d) 0

end Scaled

/-- The value of `±whole.places e±exponent`, given by its digits. -/
def scaled (negative : Bool) (whole places : List Nat) (exponentNegative : Bool)
    (exponent : List Nat) : Option Float :=
  let (s, dropped) := Scaled.takeWhole 0 whole
  let (s, taken) := Scaled.takePlaces s places
  let power := Scaled.valueOf exponent
  if Scaled.exponentCapacity < power then
    if s ≠ 0 ∧ !exponentNegative then none else some (if negative then -0.0 else 0.0)
  else
    let shift : Int := if exponentNegative then -(power : Int) else power
    Scaled.number negative s ((dropped : Int) - taken + shift)

end Number
end Stylus
