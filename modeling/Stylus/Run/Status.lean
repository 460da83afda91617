import Stylus.Document.Record

/-!
# The status of a run

What anyone may know of the run that is under way, if there is one.
-/

set_option autoImplicit false

namespace Stylus

/-- How far a run has come. -/
structure RunPosition where
  stepIndex : Nat
  iterCount : UInt32
  iterations : UInt32
deriving DecidableEq, Repr

/-- The status of the runner. -/
inductive RunnerStatus where
  | idle
  /-- a stop was asked for, and the step under way is being finished -/
  | waitingToStop
  | paused (position : RunPosition)
  | running (position : RunPosition)
deriving DecidableEq, Repr

namespace RunnerStatus

/-- No run is under way. -/
def isIdle : RunnerStatus → Bool
  | idle => true
  | _ => false

/-- The step that comes next. -/
def stepIndex? : RunnerStatus → Option Nat
  | paused p | running p => some p.stepIndex
  | idle | waitingToStop => none

/-- The status in words. -/
def text : RunnerStatus → String
  | idle => "idle"
  | waitingToStop => "waiting to stop"
  | paused p => s!"paused at step {p.stepIndex} (iteration {p.iterCount}/{p.iterations})"
  | running p => s!"running step {p.stepIndex} (iteration {p.iterCount}/{p.iterations})"

/-- The members that say how far a run has come. -/
def positionMembers (p : RunPosition) : List (String × Json) :=
  [("step_index", .integer p.stepIndex), ("iter_count", .integer p.iterCount.toNat),
    ("iterations", .integer p.iterations.toNat)]

/-- The members of a status. -/
def members : RunnerStatus → List (String × Json)
  | idle => [("state", .text "idle")]
  | waitingToStop => [("state", .text "waiting_to_stop")]
  | paused p => ("state", .text "paused") :: positionMembers p
  | running p => ("state", .text "running") :: positionMembers p

/-- A status as a document. -/
def toJson (status : RunnerStatus) : Json :=
  .table status.members

/-- The members that say how far a run has come, in a document. -/
def positionRecord : Record RunPosition :=
  RunPosition.mk
    <$> Record.required "step_index" (Reader.whole "usize" UInt64.size)
    <*> Record.required "iter_count" Reader.whole32
    <*> Record.required "iterations" Reader.whole32

/-- The choice of a status in a document. -/
def tagged : Tagged RunnerStatus where
  tag := "state"
  title := "internally tagged enum RunnerStatus"
  variants := [
    ("idle", Record.unit idle),
    ("waiting_to_stop", Record.unit waitingToStop),
    ("paused", (paused <$> positionRecord).reader "struct variant RunnerStatus::Paused"),
    ("running", (running <$> positionRecord).reader "struct variant RunnerStatus::Running")]

/-- A status in a document. -/
def reader : Reader RunnerStatus :=
  tagged.reader

end RunnerStatus

end Stylus
