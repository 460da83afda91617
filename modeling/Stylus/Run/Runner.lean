import Stylus.Run.Plan
import Stylus.Run.Status

/-!
# The runner

What everyone shares of the run under way: two flags by which it is controlled, and how far it has
come.  Each definition here that changes them is one write; the start and the end of a run are two
writes each, and another thread may come between them.
-/

set_option autoImplicit false

namespace Stylus

/-- What a run is asked to do at the next boundary between steps. -/
structure Control where
  pause : Bool := false
  stop : Bool := false
deriving DecidableEq, Repr

/-- How far the run has come, or how the last one ended. -/
structure RunProgress where
  running : Bool := false
  script : Option String := none
  stepIndex : Nat := 0
  iterCount : UInt32 := 0
  iterations : UInt32 := 0
  lastError : Option Failure := none
deriving DecidableEq, Repr

/-- How a run ends that does not fail. -/
inductive RunOutcome where
  | completed
  | stopped
deriving DecidableEq, Repr

/-- What is shared of the run under way. -/
structure Runner where
  control : Control := {}
  progress : RunProgress := {}
deriving DecidableEq, Repr

namespace Runner

/-- Sets or clears the wish for a pause. -/
def setPause (r : Runner) (pause : Bool) : Runner :=
  { r with control := { r.control with pause } }

/-- Asks for a stop at the next boundary. -/
def requestStop (r : Runner) : Runner :=
  { r with control := { r.control with stop := true } }

/-- Forgets all wishes. -/
def resetControl (r : Runner) : Runner :=
  { r with control := {} }

/-- Notes that a run of a plan begins. -/
def markRunning (r : Runner) (plan : Plan) : Runner :=
  { r with progress := { running := true, script := some plan.script.name,
                         iterations := plan.script.iterationCount } }

/-- Notes that no run is under way. -/
def clearRunning (r : Runner) : Runner :=
  { r with progress := { r.progress with running := false } }

/-- Notes how the run ended. -/
def noteError (r : Runner) (error : Option Failure) : Runner :=
  { r with progress := { r.progress with lastError := error } }

/-- Notes how far the run has come. -/
def publish (r : Runner) (stepIndex : Nat) (iterCount : UInt32) : Runner :=
  { r with progress := { r.progress with stepIndex, iterCount } }

/-- How far the run has come. -/
def position (r : Runner) : RunPosition :=
  ⟨r.progress.stepIndex, r.progress.iterCount, r.progress.iterations⟩

/-- The status. -/
def status (r : Runner) : RunnerStatus :=
  if !r.progress.running then .idle
  else if r.control.stop then .waitingToStop
  else if r.control.pause then .paused r.position
  else .running r.position

end Runner

end Stylus
