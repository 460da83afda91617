import Stylus.Document.Reader
import Stylus.Text.Blank

/-!
# Sides

The plotter can hold two target devices next to each other; a step or a position belongs to the left
or to the right one.
-/

set_option autoImplicit false

namespace Stylus

/-- One of the two target devices. -/
inductive Side where
  | left
  | right
deriving DecidableEq, Repr

namespace Side

/-- The name of a side. -/
def name : Side → String
  | left => "left"
  | right => "right"

/-- Both sides by name. -/
def known : List (String × Side) :=
  [("left", left), ("right", right)]

/-- The side that a word names, in letters of any case; otherwise the word in small letters. -/
def ofWord (word : String) : Except String Side :=
  let lowered := Text.lowerAscii word
  match Reader.named? known lowered with
  | some side => .ok side
  | none => .error lowered

/-- The side as a document. -/
def toJson (side : Side) : Json :=
  .text side.name

/-- The side in a request. -/
def reader : Reader Side :=
  Reader.name known

end Side

end Stylus
