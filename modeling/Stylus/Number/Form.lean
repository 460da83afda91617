import Stylus.Number.Shortest

/-!
# Written forms of a number

A `Form` says how the digits of `shortest` are laid out: which magnitudes are written with a plain
decimal point and which with an exponent, and how whole numbers, infinities and undefined values
look.  Three forms are in use:

* `Form.document` — the form of numbers in documents, replies and reports;
* `Form.plain` — the form of words in motion commands, never with an exponent;
* `Form.pointedPlain` — the form in which a fault quotes a number, plain but always with a point.
-/

set_option autoImplicit false

namespace Stylus
namespace Number

/-- How digits are laid out. -/
structure Form where
  tie : Tie
  /-- the number `d.ddd · 10^e` is written without an exponent -/
  positional : Int → Bool
  /-- whole numbers in positional notation end in `.0` -/
  pointed : Bool
  nan : String
  infinity : String

/-- Digits as text, most significant first. -/
def digitText (n : Nat) : List Char :=
  Nat.toDigits 10 n

/-- `digits · 10^exponent` with a plain decimal point and no exponent. -/
def positionalText (pointed : Bool) (d : Decimal) : List Char :=
  let text := digitText d.digits
  if 0 ≤ d.exponent then
    text ++ List.replicate d.exponent.toNat '0' ++ (if pointed then ['.', '0'] else [])
  else
    let places := (-d.exponent).toNat
    if text.length ≤ places then
      ['0', '.'] ++ List.replicate (places - text.length) '0' ++ text
    else
      text.take (text.length - places) ++ ['.'] ++ text.drop (text.length - places)

/-- `d.ddde±n`; the sign of a positive exponent is written. -/
def scientificText (d : Decimal) : List Char :=
  let text := digitText d.digits
  let exponent := d.exponent + (text.length : Int) - 1
  let mantissa :=
    match text with
    | [] => []
    | [c] => [c]
    | c :: rest => c :: '.' :: rest
  mantissa ++ ['e'] ++ (if exponent < 0 then ['-'] else ['+']) ++ digitText exponent.natAbs

/-- The text of a positive decimal. -/
def Form.decimal (form : Form) (d : Decimal) : List Char :=
  let leading := d.exponent + ((digitText d.digits).length : Int) - 1
  if form.positional leading then positionalText form.pointed d else scientificText d

/-- The text of a number. -/
def Form.render (form : Form) (x : Float) : String :=
  match Binary.ofFloat x with
  | .nan => form.nan
  | .infinite negative => (if negative then "-" else "") ++ form.infinity
  | .finite negative mantissa exponent =>
    let body :=
      if mantissa = 0 then
        if form.pointed then ['0', '.', '0'] else ['0']
      else
        form.decimal (shortest form.tie mantissa exponent)
    String.ofList (if negative then '-' :: body else body)

/-- Numbers in documents: positional from `0.00001` up to sixteen digits before the point, with at
least one digit after it; beyond that `1e+16`, `1.5e-7`. -/
def Form.document : Form where
  tie := .toEven
  positional e := decide (-5 ≤ e) && decide (e ≤ 15)
  pointed := true
  nan := "NaN"
  infinity := "inf"

/-- Numbers in motion commands: always positional, whole numbers without a point. -/
def Form.plain : Form where
  tie := .up
  positional _ := true
  pointed := false
  nan := "NaN"
  infinity := "inf"

/-- Numbers quoted in a fault: positional, and a whole number still shows a point. -/
def Form.pointedPlain : Form :=
  { Form.plain with pointed := true }

end Number
end Stylus
