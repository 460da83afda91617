import Stylus.Layout.Basic
import Stylus.Motion.Axis

/-!
# Targets

A target names the axes that a move is to change, and where they are to go; the stylus drive is
always given a distance.
-/

set_option autoImplicit false

namespace Stylus

/-- Where a move goes; an axis that is not named stays. -/
structure MoveTarget where
  x : Option Float := none
  y : Option Float := none
  z : Option Float := none
  /-- how far the stylus goes out -/
  e : Option Float := none

namespace MoveTarget

/-- The target above a point. -/
def ofPoint (p : Point) : MoveTarget :=
  { x := some p.x, y := some p.y }

/-- The same target with a travel of the stylus. -/
def withStylus (target : MoveTarget) (travel : Float) : MoveTarget :=
  { target with e := some travel }

/-- The value of an axis that is named. -/
def word? (axis : Axis) (value : Option Float) : List (Axis × Float) :=
  (value.map fun v => (axis, v)).toList

/-- The named axes with their values, in the order `X`, `Y`, `Z`, `E`. -/
def words (target : MoveTarget) : List (Axis × Float) :=
  word? .x target.x ++ word? .y target.y ++ word? .z target.z ++ word? .e target.e

/-- A target as a document; axes that are not named are left out. -/
def toJson (target : MoveTarget) : Json :=
  .table <|
    Script.whenSome "x" target.x .real ++ Script.whenSome "y" target.y .real
      ++ Script.whenSome "z" target.z .real ++ Script.whenSome "e" target.e .real

/-- The members of a target in a document. -/
def record : Record MoveTarget :=
  MoveTarget.mk
    <$> Record.defaulted "x" none (Reader.optional Reader.real)
    <*> Record.defaulted "y" none (Reader.optional Reader.real)
    <*> Record.defaulted "z" none (Reader.optional Reader.real)
    <*> Record.defaulted "e" none (Reader.optional Reader.real)

/-- A target in a document. -/
def reader : Reader MoveTarget :=
  record.reader "struct MoveTarget"

end MoveTarget

end Stylus
