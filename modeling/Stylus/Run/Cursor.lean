import Stylus.Motion.Operation
import Stylus.Run.Runner
import Stylus.Script.TimeSpec

/-!
# Carrying out steps

A `Cursor` is where a run is in its script.  `Cursor.take` says what a step comes to: a turn at the
controller, which is a list of stages, or nothing but a change of the cursor, or a failure.
-/

set_option autoImplicit false

namespace Stylus

/-- The latest time, in milliseconds, that the clock can tell. -/
def Clock.horizon : Nat :=
  (UInt64.size / 2 - 1 - 86400) * 1000 + 999

/-- The time that lies `span` milliseconds ahead, if the clock can tell it. -/
def Clock.ahead? (now span : Nat) : Option Nat :=
  if now + span ≤ Clock.horizon then some (now + span) else none

/-- What is done with the controller in hand. -/
inductive Stage where
  | operate (op : Operation)
  /-- homes the plotter if it is not homed -/
  | homeUnlessHomed
  /-- waits until a contact may be made -/
  | awaitReady (deadline : Option Nat)

/-- Where a run is in its script. -/
structure Cursor where
  stepIndex : Nat := 0
  /-- the last mark met -/
  mark : Option Nat := none
  /-- how many passes were made -/
  iterCount : UInt32 := 0
  iterations : UInt32
  /-- when the next contact may be made -/
  deadline : Option Nat := none

/-- What a step comes to. -/
inductive Taken where
  /-- stages to carry out in one turn at the controller -/
  | turn (stages : List Stage)
  /-- the step is done -/
  | done (cursor : Cursor)
  | failed (f : Failure)

namespace Cursor

/-- The start of a script. -/
def start (iterations : UInt32) : Cursor :=
  { iterations }

/-- The cursor at the step after this one. -/
def advance (cursor : Cursor) : Cursor :=
  { cursor with stepIndex := cursor.stepIndex + 1 }

/-- What a tap comes to: the head goes there and the stylus comes down when it may. -/
def tapStages (cursor : Cursor) (p : Point) : List Stage :=
  [.operate (.moveTo (.ofPoint p)), .operate .finish, .awaitReady cursor.deadline, .operate .tap,
    .operate .finish]

/-- What a swipe comes to: the head goes to its start and the stylus comes down when it may. -/
def swipeStages (cursor : Cursor) (start goal : Point) : List Stage :=
  [.operate (.moveTo (.ofPoint start)), .operate .finish, .awaitReady cursor.deadline,
    .operate (.swipe start goal)]

/-- Goes back to the mark until all passes are made.  All loops count in one place, so a loop after
the last pass is passed by. -/
def loopBack (cursor : Cursor) : Taken :=
  match cursor.mark with
  | none => .failed (.invalidLoopMark cursor.stepIndex)
  | some mark =>
    let cursor := { cursor with iterCount := cursor.iterCount + 1 }
    if cursor.iterCount < cursor.iterations then .done { cursor with stepIndex := mark }.advance
    else .done cursor.advance

/-- Sets the time of the next contact. -/
def hold (cursor : Cursor) (now : Nat) (spec : String) : Taken :=
  match TimeSpec.milliseconds spec with
  | .error f => .failed f
  | .ok span =>
    match Clock.ahead? now span with
    | none => .failed (.invalidTimeSpec spec)
    | some deadline => .done { cursor with deadline := some deadline }.advance

/-- What a step comes to. -/
def take (cursor : Cursor) (plan : Plan) (now : Nat) : Step → Taken
  | .tap location side =>
    match plan.resolve side location with
    | .error f => .failed f
    | .ok p => .turn (cursor.tapStages p)
  | .swipe start goal side =>
    match plan.resolve side start with
    | .error f => .failed f
    | .ok start =>
      match plan.resolve side goal with
      | .error f => .failed f
      | .ok goal => .turn (cursor.swipeStages start goal)
  | .wait spec => cursor.hold now spec
  | .mark => .done { cursor with mark := some cursor.stepIndex }.advance
  | .loop => cursor.loopBack
  | .load => .turn [.operate .load]

end Cursor

end Stylus
