import Stylus.Failure

/-!
# Axes

The plotter moves its head along `X`, `Y` and `Z`; `E` is the drive that moves the stylus.
-/

set_option autoImplicit false

namespace Stylus

/-- An axis of the plotter. -/
inductive Axis where
  | x
  | y
  | z
  | e
deriving DecidableEq, Repr

namespace Axis

/-- The letter of an axis. -/
def letter : Axis → Char
  | x => 'X'
  | y => 'Y'
  | z => 'Z'
  | e => 'E'

/-- The letter of an axis as a text. -/
def name (axis : Axis) : String :=
  String.singleton axis.letter

/-- The axis that a word names: its letter in either case, blanks around it not counting. -/
def ofWord (word : String) : Except Failure Axis :=
  match Text.upperAscii (Text.trim word) with
  | "X" => .ok x
  | "Y" => .ok y
  | "Z" => .ok z
  | "E" => .ok e
  | _ => .error (.unknownAxis word)

/-- The axis as a document. -/
def toJson (axis : Axis) : Json :=
  .text axis.name

/-- The axis in a document. -/
def reader : Reader Axis :=
  Reader.refine Reader.text fun word =>
    match ofWord word with
    | .ok axis => .ok axis
    | .error f => .error f.message

end Axis

end Stylus
