import Stylus.Bench.Turn

/-!
# The bench

The bench is everything that moves: the controller with those who wait for it, the run under way,
and the clock.  It changes by events (`Bench.Event`), each of which is one indivisible move of
somebody; who moves when is not said here, so whatever holds for all sequences of events holds for
every schedule of requests, waits, delays and failures.

* A free controller goes to who asks for it; otherwise turns are taken in the order of asking, and
  the controller is handed on in the same move in which a turn ends.
* A run looks at the wishes for a stop or a pause only at the boundaries between its steps.
* Every command that the plotter has answered is on record, with whose turn it belonged to.
-/

set_option autoImplicit false

namespace Stylus

/-- Where a run is between and within its steps. -/
inductive Phase where
  /-- at the boundary before the next step -/
  | boundary
  /-- paused until the wishes change, but at most until this time -/
  | resting (time : Nat)
  /-- in a step that needs the controller -/
  | working
deriving DecidableEq, Repr

/-- A run under way. -/
structure Run where
  plan : Plan
  cursor : Cursor
  phase : Phase := .boundary

/-- A command that the plotter has answered. -/
structure Entry where
  time : Nat
  owner : Owner
  line : Gcode
  /-- it was acknowledged -/
  accepted : Bool

/-- Something that has come to its end. -/
inductive Report where
  /-- a turn of a client or of the operator, with the answer to its last command -/
  | turn (owner : Owner) (result : Except Failure String)
  /-- the run -/
  | run (result : Except Failure RunOutcome)

/-- Everything that moves. -/
structure Bench where
  /-- the time in milliseconds -/
  now : Nat := 0
  controller : Controller
  runner : Runner := {}
  run : Option Run := none
  /-- who has the controller -/
  holder : Option Turn := none
  /-- who waits for the controller, the first one first -/
  waiting : List Turn := []
  /-- the commands answered, the last one first -/
  log : List Entry := []
  /-- what has come to its end, the last one first -/
  reports : List Report := []

namespace Bench

/-- A paused run looks at the wishes again after this many milliseconds. -/
def pausePoll : Nat := 200

/-! ## The run -/

/-- Begins the run of a plan; there must be none under way. -/
def start (b : Bench) (plan : Plan) : Except Failure Bench :=
  if b.runner.progress.running then .error .runActive
  else
    .ok { b with
      runner := (b.runner.markRunning plan).resetControl
      run := some { plan, cursor := .start plan.script.iterationCount } }

/-- Begins the run that a request asks for. -/
def request (b : Bench) (r : RunRequest) : Except Failure Bench := do
  b.start (← r.plan)

/-- The failure in the end of a run. -/
def failure? {α : Type} : Except Failure α → Option Failure
  | .ok _ => none
  | .error f => some f

/-- Ends the run. -/
def endRun (b : Bench) (result : Except Failure RunOutcome) : Bench :=
  { b with
    runner := ((b.runner.noteError (failure? result)).clearRunning).resetControl
    run := none
    reports := .run result :: b.reports }

/-- A step is done. -/
def passStep (b : Bench) (run : Run) (cursor : Cursor) : Bench :=
  { b with
    runner := b.runner.publish cursor.stepIndex cursor.iterCount
    run := some { run with cursor, phase := .boundary } }

/-- A run that rests looks at the wishes. -/
def wakeRun (b : Bench) : Bench :=
  match b.run with
  | some run =>
    match run.phase with
    | .resting _ => { b with run := some { run with phase := .boundary } }
    | _ => b
  | none => b

/-- A run that has rested long enough looks at the wishes. -/
def poll (b : Bench) : Bench :=
  match b.run with
  | some run =>
    match run.phase with
    | .resting time => if time ≤ b.now then b.wakeRun else b
    | _ => b
  | none => b

/-- Changes the wishes; a run that rests notices. -/
def control (b : Bench) (change : Runner → Runner) : Bench :=
  wakeRun { b with runner := change b.runner }

/-- Wishes for a pause. -/
def pause (b : Bench) : Bench := b.control (·.setPause true)

/-- No longer wishes for a pause. -/
def resume (b : Bench) : Bench := b.control (·.setPause false)

/-- Wishes for a stop. -/
def stop (b : Bench) : Bench := b.control Runner.requestStop

/-! ## The controller -/

/-- Asks for a turn. -/
def queue (b : Bench) (owner : Owner) (stages : List Stage) : Bench :=
  let turn : Turn := { owner, stages }
  match b.holder with
  | none => { b with holder := some turn }
  | some _ => { b with waiting := b.waiting ++ [turn] }

/-- Gives up waiting. -/
def withdraw (b : Bench) (owner : Owner) : Bench :=
  { b with waiting := b.waiting.filter (·.owner ≠ owner) }

/-- Hands the controller to the next one who waits. -/
def handOn (b : Bench) : Bench :=
  match b.waiting with
  | [] => { b with holder := none }
  | turn :: rest => { b with holder := some turn, waiting := rest }

/-- A turn of the run is over, and with it the step. -/
def runTurnOver (b : Bench) (result : Except Failure String) : Bench :=
  match b.run with
  | none => b
  | some run =>
    match result with
    | .ok _ => b.passStep run run.cursor.advance
    | .error f => b.endRun (.error f)

/-- A turn is over. -/
def turnOver (b : Bench) (owner : Owner) (result : Except Failure String) : Bench :=
  match owner with
  | .run => b.handOn.runTurnOver result
  | owner => { b.handOn with reports := .turn owner result :: b.reports }

/-- The holder of the controller goes on. -/
def goOn (b : Bench) (turn : Turn) (answer : String) (stages : List Stage) : Bench :=
  match Turn.goOn b.controller b.now answer stages with
  | .busy activity stages => { b with holder := some { turn with activity, stages } }
  | .over result => b.turnOver turn.owner result

/-- Whoever has got the controller begins. -/
def proceed (b : Bench) : Bench :=
  match b.holder with
  | some turn =>
    match turn.activity with
    | .ready => b.goOn turn "" turn.stages
    | _ => b
  | none => b

/-- Whoever has the controller has slept long enough. -/
def wake (b : Bench) : Bench :=
  match b.holder with
  | some turn =>
    match turn.activity with
    | .sleeping time => if time ≤ b.now then b.goOn turn "" turn.stages else b
    | _ => b
  | none => b

/-- Puts an answered command on record. -/
def record (b : Bench) (owner : Owner) (ask : Ask) (accepted : Bool) : Bench :=
  match ask with
  | .link => b
  | .command line => { b with log := ⟨b.now, owner, line, accepted⟩ :: b.log }

/-- An answer was good. -/
def isOk {α : Type} : Except Failure α → Bool
  | .ok _ => true
  | .error _ => false

/-- The plotter answers what it was asked for. -/
def answer (b : Bench) (a : Except Failure String) : Bench :=
  match b.holder with
  | some turn =>
    match turn.activity with
    | .asking work =>
      let b := b.record turn.owner work.ask (isOk a)
      match b.controller.answered work a with
      | (controller, .asking work) =>
        { b with controller, holder := some { turn with activity := .asking work } }
      | (controller, .over (.ok text)) => goOn { b with controller } turn text turn.stages
      | (controller, .over (.error f)) => turnOver { b with controller } turn.owner (.error f)
    | _ => b
  | none => b

/-! ## Between steps -/

/-- A run at a boundary: it stops or rests if that is wished for, ends behind the last step, and
otherwise takes the next one. -/
def decide (b : Bench) : Bench :=
  match b.run with
  | some run =>
    match run.phase with
    | .boundary =>
      if b.runner.control.stop then b.endRun (.ok .stopped)
      else if b.runner.control.pause then
        { b with run := some { run with phase := .resting (b.now + pausePoll) } }
      else
        match run.plan.script.steps[run.cursor.stepIndex]? with
        | none => b.endRun (.ok .completed)
        | some step =>
          match run.cursor.take run.plan b.now step with
          | .turn stages => queue { b with run := some { run with phase := .working } } .run stages
          | .done cursor => b.passStep run cursor
          | .failed f => b.endRun (.error f)
    | _ => b
  | none => b

/-! ## Events -/

/-- One move of somebody. -/
inductive Event where
  /-- time passes -/
  | pass (span : Nat)
  /-- a run is asked for -/
  | request (r : RunRequest)
  | pause
  | resume
  | stop
  /-- someone asks for a turn -/
  | queue (guest : Guest) (stages : List Stage)
  /-- someone gives up waiting for a turn -/
  | withdraw (guest : Guest)
  /-- whoever has got the controller begins -/
  | proceed
  /-- whoever has the controller has slept -/
  | wake
  /-- the plotter answers -/
  | answer (a : Except Failure String)
  /-- the run moves on from a boundary -/
  | decide
  /-- the run has rested -/
  | poll

/-- What an event does. -/
def step (b : Bench) : Event → Bench
  | .pass span => { b with now := b.now + span }
  | .request r =>
    match b.request r with
    | .ok b => b
    | .error _ => b
  | .pause => b.pause
  | .resume => b.resume
  | .stop => b.stop
  | .queue guest stages => b.queue guest.owner stages
  | .withdraw guest => b.withdraw guest.owner
  | .proceed => b.proceed
  | .wake => b.wake
  | .answer a => b.answer a
  | .decide => b.decide
  | .poll => b.poll

/-- What a sequence of events does. -/
def steps (b : Bench) (events : List Event) : Bench :=
  events.foldl step b

end Bench

end Stylus
