import Stylus.Motion.Controller
import Stylus.Run.Cursor

/-!
# Turns

There is one controller, and whoever wants to use it waits for a turn.  A `Turn` is a list of stages
to be carried out with the controller in hand; nobody else gets the controller until the last one is
done or one has failed.

* `Turn.goOn` — what a turn comes to when the stage before has been done.
-/

set_option autoImplicit false

namespace Stylus

/-- Who uses the controller. -/
inductive Owner where
  /-- the run under way -/
  | run
  /-- the request of a client -/
  | client (n : Nat)
  /-- whoever works the controller by hand -/
  | operator
deriving DecidableEq, Repr

/-- Who may ask for a turn at any time; the run does so only when its steps call for it. -/
inductive Guest where
  | client (n : Nat)
  | operator
deriving DecidableEq, Repr

/-- A guest as a user of the controller. -/
def Guest.owner : Guest → Owner
  | client n => .client n
  | operator => .operator

/-- What a turn is doing. -/
inductive Activity where
  /-- nothing yet: it waits, or its next stage is due -/
  | ready
  /-- an operation is under way -/
  | asking (work : Work)
  | sleeping (time : Nat)

/-- Stages to be carried out with the controller in hand. -/
structure Turn where
  owner : Owner
  activity : Activity := .ready
  stages : List Stage

/-- What a turn comes to. -/
inductive TurnState where
  | busy (activity : Activity) (stages : List Stage)
  /-- the turn is over; the text is the answer to its last command -/
  | over (result : Except Failure String)

namespace Turn

/-- Waits shorter than this, in milliseconds, are not worth sleeping for. -/
def minimalWait : Nat := 20

/-- A contact that may be made at the deadline has to be waited for. -/
def mustWait (now : Nat) : Option Nat → Option Nat
  | none => none
  | some deadline => if now + minimalWait < deadline then some deadline else none

/-- Starts the next stage; `answer` is the answer to the last command before it. -/
def goOn (c : Controller) (now : Nat) (answer : String) : List Stage → TurnState
  | [] => .over (.ok answer)
  | .operate op :: stages =>
    match c.begin op with
    | .asking work => .busy (.asking work) stages
    | .over (.ok answer) => goOn c now answer stages
    | .over (.error f) => .over (.error f)
  | .homeUnlessHomed :: stages =>
    if c.pose.homed then goOn c now answer stages
    else
      match c.begin .home with
      | .asking work => .busy (.asking work) stages
      | .over (.ok answer) => goOn c now answer stages
      | .over (.error f) => .over (.error f)
  | .awaitReady deadline :: stages =>
    match mustWait now deadline with
    | some time => .busy (.sleeping time) stages
    | none => goOn c now answer stages

end Turn

end Stylus
