/-!
# Numbers taken apart

Every coordinate, depth and feed rate of the plotter is a binary64 number.  This file takes such a
number apart into sign, mantissa and exponent, which is what exact printing and exact rounding work
on, and rounds to whole numbers.

* `Binary.ofFloat` — the parts of a number: `±mantissa · 2^exponent`, an infinity, or not a number.
* `roundAway` — the nearest whole number, halves going away from zero.
-/

set_option autoImplicit false

namespace Stylus
namespace Number

/-- A binary64 number taken apart; `finite` stands for `±mantissa · 2^exponent`. -/
inductive Binary where
  | nan
  | infinite (negative : Bool)
  | finite (negative : Bool) (mantissa : Nat) (exponent : Int)
deriving DecidableEq, Repr

namespace Binary

/-- The parts that a 64-bit pattern encodes: one sign bit, eleven exponent bits and fifty-two
fraction bits, the leading one of a normal mantissa being implicit. -/
def ofBits (bits : Nat) : Binary :=
  let negative : Bool := bits / Nat.pow 2 63 % 2 == 1
  let field : Nat := bits / Nat.pow 2 52 % Nat.pow 2 11
  let fraction : Nat := bits % Nat.pow 2 52
  if field = 2047 then
    if fraction = 0 then .infinite negative else .nan
  else if field = 0 then
    .finite negative fraction (-1074)
  else
    .finite negative (Nat.pow 2 52 + fraction) ((field : Int) - 1075)

/-- The parts of a number. -/
def ofFloat (x : Float) : Binary :=
  ofBits x.toBits.toNat

/-- Neither infinite nor undefined. -/
def isFinite : Binary → Bool
  | .finite _ _ _ => true
  | _ => false

end Binary

/-- `x` is a proper number: neither infinite nor undefined. -/
def isFinite (x : Float) : Bool :=
  (Binary.ofFloat x).isFinite

/-- The whole number nearest to `x`, halves going away from zero.  A number whose exponent is not
negative is whole already, and the sign of a zero is kept. -/
def roundAway (x : Float) : Float :=
  match Binary.ofFloat x with
  | .finite negative mantissa (.negSucc e) =>
    let whole := Float.ofNat ((mantissa + Nat.pow 2 e) / Nat.pow 2 (e + 1))
    if negative then -whole else whole
  | _ => x

end Number
end Stylus
