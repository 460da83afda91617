import Stylus.Motion.Pose
import Stylus.Motion.Settings
import Stylus.Motion.Target

/-!
# Operations

An operation is what the plotter is asked to do; it is carried out in one or more legs.  A `Leg` is
a batch of commands that are acknowledged one by one, together with what is known of the pose once
all of them are (`Track`).

* `Operation.legs` — the legs of an operation.
-/

set_option autoImplicit false

namespace Stylus

/-- What is known of the pose after a leg. -/
inductive Track where
  /-- the pose is as before -/
  | keep
  /-- the head is at the origin -/
  | origin
  /-- the head is where the target says -/
  | place (target : MoveTarget)
  /-- one axis is at a position -/
  | set (axis : Axis) (position : Float)
  /-- one axis has moved by a distance -/
  | shift (axis : Axis) (distance : Float)

namespace Pose

/-- The pose with one axis at a position; the stylus drive has none. -/
def set (pose : Pose) (axis : Axis) (position : Float) : Pose :=
  match axis with
  | .x => { pose with x := position }
  | .y => { pose with y := position }
  | .z => { pose with z := position }
  | .e => pose

/-- The position of an axis. -/
def get? (pose : Pose) : Axis → Option Float
  | .x => some pose.x
  | .y => some pose.y
  | .z => some pose.z
  | .e => none

/-- The pose with the axes of a target where it says. -/
def place (pose : Pose) (target : MoveTarget) : Pose :=
  { pose with x := target.x.getD pose.x, y := target.y.getD pose.y, z := target.z.getD pose.z }

/-- The pose after a leg. -/
def after (pose : Pose) : Track → Pose
  | .keep => pose
  | .origin => origin
  | .place target => pose.place target
  | .set axis position => pose.set axis position
  | .shift axis distance =>
    match pose.get? axis with
    | some position => pose.set axis (position + distance)
    | none => pose

end Pose

/-- A batch of commands, at least one. -/
structure Leg where
  /-- the leg makes sense only once the plotter is homed -/
  needsHome : Bool
  first : Gcode
  others : List Gcode
  track : Track

namespace Leg

/-- The commands of a leg, in order. -/
def lines (leg : Leg) : List Gcode :=
  leg.first :: leg.others

/-- A single command that does not change the pose. -/
def single (line : Gcode) : Leg :=
  ⟨false, line, [], .keep⟩

/-- A move to a target, at the feed rate of moves. -/
def moveTo (settings : MotionSettings) (target : MoveTarget) : Leg :=
  let move := Gcode.move target.words (some settings.feedRate)
  match target.e with
  | some _ => ⟨true, .relativeStylus, [.absolute, move], .place target⟩
  | none => ⟨true, .absolute, [move], .place target⟩

/-- A move of one axis to a position. -/
def moveAbsolute (axis : Axis) (position : Float) : Leg :=
  ⟨true, .absolute, [.move [(axis, position)] none], .set axis position⟩

/-- A move of one axis by a distance; it needs no origin. -/
def moveRelative (axis : Axis) (distance : Float) : Leg :=
  ⟨false, .relative, [.move [(axis, distance)] none], .shift axis distance⟩

end Leg

/-- What the plotter is asked to do. -/
inductive Operation where
  | home
  /-- moves the stylus out and back -/
  | tap
  | off
  /-- waits until all moves are made -/
  | finish
  | info
  | moveTo (target : MoveTarget)
  | moveAbsolute (axis : Axis) (position : Float)
  | moveRelative (axis : Axis) (distance : Float)
  /-- drags the stylus from one point to another -/
  | swipe (start goal : Point)
  /-- goes to where target devices are placed and taken away -/
  | load

namespace Operation

/-- The legs of an operation.  A swipe lets the stylus out on the way to the middle and takes it
back on the way to the goal; loading an unhomed plotter homes the axis that moves. -/
def legs (settings : MotionSettings) (pose : Pose) : Operation → List Leg
  | home => [⟨false, .home, [], .origin⟩]
  | tap =>
    [⟨false, .relativeStylus,
      [.move [(.e, settings.tapDepth)] none, .move [(.e, -settings.tapDepth)] none], .keep⟩]
  | off => [.single .motorsOff]
  | finish => [.single .finish]
  | info => [.single .identify]
  | moveTo target => [.moveTo settings target]
  | moveAbsolute axis position => [.moveAbsolute axis position]
  | moveRelative axis distance => [.moveRelative axis distance]
  | swipe start goal =>
    let middle := (MoveTarget.ofPoint (start.midpoint goal)).withStylus settings.swipeDepth
    let last := (MoveTarget.ofPoint goal).withStylus (-settings.swipeDepth)
    [.moveTo settings (.ofPoint start), .moveTo settings middle, .moveTo settings last]
  | load =>
    if pose.homed then [.moveAbsolute settings.loadAxis settings.loadPosition]
    else
      [⟨false, .homeAxis settings.loadAxis, [], .set settings.loadAxis 0⟩,
        .moveRelative settings.loadAxis settings.loadPosition]

end Operation

end Stylus
