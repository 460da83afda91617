import Stylus.Motion.Operation

/-!
# The controller

The controller carries out operations over a link to the plotter and keeps track of the pose.  It is
a machine that asks and is answered: `Controller.begin` starts an operation, and while that is
`asking` for something (`Work.ask`), `Controller.answered` takes the answer and goes on.

* A leg that needs the plotter homed is refused, before anything is asked for, while it is not.
* Without a link the first thing asked for is one; then the commands of the leg, one at a time.
* The pose changes when the last command of a leg is acknowledged, and observers are told.
* A failure ends the operation; if it means that the link is gone, the link is dropped.
-/

set_option autoImplicit false

namespace Stylus

/-- What an operation under way is waiting for. -/
inductive Ask where
  /-- a link to the plotter -/
  | link
  /-- the acknowledgment of a command -/
  | command (line : Gcode)

/-- An operation under way. -/
structure Work where
  /-- the link is still to be made -/
  linking : Bool
  /-- the next command of the leg, or the one that was sent -/
  line : Gcode
  /-- the commands of the leg after that -/
  rest : List Gcode
  /-- what is known of the pose after the leg -/
  track : Track
  /-- the legs after that -/
  legs : List Leg

/-- What the operation waits for. -/
def Work.ask (work : Work) : Ask :=
  if work.linking then .link else .command work.line

/-- Whether an operation goes on. -/
inductive Progress where
  | asking (work : Work)
  /-- the operation is over; the text is the answer to its last command -/
  | over (result : Except Failure String)

/-- The link, the pose, and the pose that observers see. -/
structure Controller where
  settings : MotionSettings
  linked : Bool := false
  pose : Pose := .unknown
  published : Pose := .unknown

namespace Controller

/-- Takes note of the pose after a leg. -/
def track (c : Controller) (t : Track) : Controller :=
  match t with
  | .keep => c
  | t => { c with pose := c.pose.after t, published := c.pose.after t }

/-- Goes on with the next leg, if there is one. -/
def next (c : Controller) (answer : String) : List Leg → Progress
  | [] => .over (.ok answer)
  | leg :: legs =>
    if leg.needsHome && !c.pose.homed then .over (.error .notHomed)
    else .asking ⟨!c.linked, leg.first, leg.others, leg.track, legs⟩

/-- Starts an operation. -/
def begin (c : Controller) (op : Operation) : Progress :=
  c.next "" (op.legs c.settings c.pose)

/-- Takes the answer to what was asked for. -/
def answered (c : Controller) (work : Work) (answer : Except Failure String) :
    Controller × Progress :=
  if work.linking then
    match answer with
    | .ok _ => ({ c with linked := true }, .asking { work with linking := false })
    | .error f => (c, .over (.error f))
  else
    match answer with
    | .error f => ({ c with linked := c.linked && !f.isLinkLost }, .over (.error f))
    | .ok text =>
      match work.rest with
      | line :: rest => (c, .asking { work with line, rest })
      | [] =>
        let c := c.track work.track
        (c, c.next text work.legs)

end Controller

end Stylus
