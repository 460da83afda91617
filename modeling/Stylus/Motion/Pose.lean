import Stylus.Document.Record

/-!
# Poses

Where the head of the plotter is, as far as that is known.  Until the plotter is homed the
coordinates are only those of moves made since, counted from `-1`, and nobody is shown them.
-/

set_option autoImplicit false

namespace Stylus

/-- The last known position of the head. -/
structure Pose where
  homed : Bool
  x : Float
  y : Float
  z : Float

/-- The answer to a question for the position. -/
inductive PositionReport where
  | unknown
  | known (x y z : Float)

namespace Pose

/-- The pose before homing. -/
def unknown : Pose :=
  ⟨false, -1, -1, -1⟩

/-- The pose after homing. -/
def origin : Pose :=
  ⟨true, 0, 0, 0⟩

/-- The position, if it is known. -/
def report (pose : Pose) : PositionReport :=
  if pose.homed then .known pose.x pose.y pose.z else .unknown

/-- The pose as it is shown: nothing moved since can be seen before homing. -/
def reported (pose : Pose) : Pose :=
  if pose.homed then pose else unknown

/-- A pose as a document. -/
def toJson (pose : Pose) : Json :=
  .table [("homed", .boolean pose.homed), ("x", .real pose.x), ("y", .real pose.y),
    ("z", .real pose.z)]

/-- The members of a pose in a document. -/
def record : Record Pose :=
  Pose.mk
    <$> Record.required "homed" Reader.boolean
    <*> Record.required "x" Reader.real
    <*> Record.required "y" Reader.real
    <*> Record.required "z" Reader.real

/-- A pose in a document. -/
def reader : Reader Pose :=
  record.reader "struct MotionState"

end Pose

/-- A report as a document. -/
def PositionReport.toJson : PositionReport → Json
  | unknown => .text "unknown"
  | known x y z => .table [("x", .real x), ("y", .real y), ("z", .real z)]

end Stylus
