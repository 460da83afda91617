import Stylus.Layout.Basic

/-!
# Plans

A run is asked for with a script and the layouts of the sides.  A `Plan` is such a request found to
have the layouts that the script needs; it resolves the locations of steps.
-/

set_option autoImplicit false

namespace Stylus

/-- Everything that a run is asked for with. -/
structure RunRequest where
  script : Script
  left : Option Layout := none
  right : Option Layout := none
  /-- the side of the target device, for a script that uses one -/
  side : Option Side := none

/-- A script with the layouts that its steps resolve through. -/
structure Plan where
  script : Script
  left : Option Layout
  right : Option Layout
  /-- the side of steps that name none -/
  defaultSide : Side

namespace RunRequest

/-- The layout of a side. -/
def layout? (request : RunRequest) : Side → Option Layout
  | .left => request.left
  | .right => request.right

/-- The side that a script for one device is run on: the one asked for, or else the one that has a
layout, the left one first. -/
def chosenSide (request : RunRequest) : Side :=
  match request.side with
  | some side => side
  | none => if request.left.isNone && request.right.isSome then .right else .left

/-- The plan of a request, if the layouts cover the script. -/
def plan (request : RunRequest) : Except Failure Plan :=
  let planned (side : Side) : Plan := ⟨request.script, request.left, request.right, side⟩
  if request.script.isDual then
    if request.left.isNone then .error (.missingLayout .left)
    else if request.right.isNone then .error (.missingLayout .right)
    else .ok (planned .left)
  else if (request.layout? request.chosenSide).isNone then
    .error (.missingLayout request.chosenSide)
  else .ok (planned request.chosenSide)

end RunRequest

namespace Plan

/-- The layout of a side. -/
def layout? (plan : Plan) : Side → Option Layout
  | .left => plan.left
  | .right => plan.right

/-- The point that a location stands for, on the side that the step names or else on the default
one. -/
def resolve (plan : Plan) (side : Option Side) (location : String) : Except Failure Point :=
  let side := side.getD plan.defaultSide
  match plan.layout? side with
  | none => .error (.missingLayout side)
  | some layout => layout.resolve side location

end Plan

end Stylus
