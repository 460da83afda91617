import Stylus.Number.Binary

/-!
# The fewest digits that read back

A positive binary64 number `mantissa · 2^exponent` owns the interval of reals that round to it.
`shortest` walks the decimal grids `10^k · ℕ` from coarse to fine and takes the first grid with a
point in that interval, so the digits it finds are the fewest that read back as the number; of two
points on that grid it takes the nearer one, and `Tie` says which of two equally near ones.

All comparisons are made in exact natural-number arithmetic, in quarter units of the last place of
the mantissa: the number is `4 · mantissa`, its upper end `4 · mantissa + 2`, and its lower end two
below, or one below where the next smaller number lies in the next smaller binade.
-/

set_option autoImplicit false

namespace Stylus
namespace Number

/-- Which of two equally near digit strings is written. -/
inductive Tie where
  /-- the one with an even last digit -/
  | toEven
  /-- the larger one -/
  | up
deriving DecidableEq, Repr

/-- Decimal digits and the power of ten they count: `digits · 10^exponent`. -/
structure Decimal where
  digits : Nat
  exponent : Int
deriving DecidableEq, Repr

namespace Shortest

/-- The interval of a positive number in quarter units of its last place. -/
structure Interval where
  low : Nat
  value : Nat
  high : Nat
  /-- the ends themselves round to the number -/
  closed : Bool
deriving DecidableEq, Repr

/-- The interval of `mantissa · 2^exponent`. -/
def interval (mantissa : Nat) (exponent : Int) : Interval where
  low := if mantissa = Nat.pow 2 52 ∧ exponent ≠ -1074 then 4 * mantissa - 1 else 4 * mantissa - 2
  value := 4 * mantissa
  high := 4 * mantissa + 2
  closed := mantissa % 2 == 0

/-- `point` of the grid lies in the interval, where one grid step is `den / num` quarter units. -/
def Interval.holds (i : Interval) (num den point : Nat) : Bool :=
  if i.closed then
    decide (i.low * num ≤ point * den) && decide (point * den ≤ i.high * num)
  else
    decide (i.low * num < point * den) && decide (point * den < i.high * num)

/-- The point of the grid to write, if the grid has one in the interval. -/
def onGrid (tie : Tie) (i : Interval) (num den : Nat) : Option Nat :=
  let below := i.value * num / den
  let above := below + 1
  match i.holds num den below, i.holds num den above with
  | false, false => none
  | true, false => some below
  | false, true => some above
  | true, true =>
    let down := i.value * num - below * den
    let up := above * den - i.value * num
    if down < up then some below
    else if up < down then some above
    else
      match tie with
      | .up => some above
      | .toEven => some (if below % 2 = 0 then below else above)

/-- The two sides of the ratio `2^(exponent - 2) / 10^k`. -/
def ratio (exponent k : Int) : Nat × Nat :=
  (Nat.pow 2 (exponent - 2).toNat * Nat.pow 10 (-k).toNat,
    Nat.pow 10 k.toNat * Nat.pow 2 (2 - exponent).toNat)

/-- The first of the grids `10^k, 10^(k-1), …` with a point in the interval. -/
def search (tie : Tie) (i : Interval) (exponent : Int) : Nat → Int → Decimal
  | 0, k => ⟨i.value * (ratio exponent k).1 / (ratio exponent k).2, k⟩
  | grids + 1, k =>
    match onGrid tie i (ratio exponent k).1 (ratio exponent k).2 with
    | some digits => ⟨digits, k⟩
    | none => search tie i exponent grids (k - 1)

end Shortest

/-- The fewest digits that read back as `mantissa · 2^exponent`, for a positive mantissa.  The
search starts on a grid coarser than the number itself; seventeen significant digits always read
back, so twenty-two grids are enough. -/
def shortest (tie : Tie) (mantissa : Nat) (exponent : Int) : Decimal :=
  let bits := (mantissa.log2 : Int) + 1 + exponent
  let coarse := bits * 30103 / 100000 + 2
  Shortest.search tie (Shortest.interval mantissa exponent) exponent 22 coarse

end Number
end Stylus
