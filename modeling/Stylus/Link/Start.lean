import Stylus.Link.Basic
import Stylus.Motion.Gcode

/-!
# Starting a link

Commands are sent as a `Batch`, each when the one before is acknowledged, up to the first failure.
A fresh link is handed out only after the commands that make the plotter ready went through as a
batch in time (`Start`); otherwise it is given up, and there is no plotter.
-/

set_option autoImplicit false

namespace Stylus

/-- Commands sent one after the other. -/
structure Batch where
  /-- the commands not sent yet -/
  rest : List String
  /-- the answers so far, the last one first -/
  answers : List String := []

/-- Whether a batch goes on. -/
inductive Batched where
  | sending (command : String) (batch : Batch)
  | over (result : Except Failure (List String))

namespace Batch

/-- Sends the next command. -/
def next (batch : Batch) : Batched :=
  match batch.rest with
  | command :: rest => .sending command { batch with rest }
  | [] => .over (.ok batch.answers.reverse)

/-- The command sent last is answered. -/
def answered (batch : Batch) (result : Except Failure String) : Batched :=
  match result with
  | .ok answer => next { batch with answers := answer :: batch.answers }
  | .error f => .over (.error f)

end Batch

/-- How far the start of a link has come. -/
inductive StartPhase where
  | sending (batch : Batch)
  | ready
  | failed

/-- A link that is being started, or is ready for use; caller `0` is the one who starts it. -/
structure Start where
  link : Link := {}
  phase : StartPhase := .ready

namespace Start

/-- The link is given up. -/
def giveUp (link : Link) : Start × List Effect :=
  let (link, effects) := link.step .aborted
  (⟨link, .failed⟩, effects)

/-- The start goes on, or is over. -/
def goOn (link : Link) : Batched → Start × List Effect
  | .sending command batch =>
    let (link, effects) := link.step (.submit ⟨0, command⟩)
    (⟨link, .sending batch⟩, effects)
  | .over (.ok _) => (⟨link, .ready⟩, [])
  | .over (.error _) => giveUp link

/-- The start of a link. -/
def begin (limit : Option Nat) (limits : SpeedLimits) : Start × List Effect :=
  goOn { limit } (Batch.next ⟨(Gcode.initialization limits).map Gcode.text, []⟩)

/-- The answer to the one who starts the link. -/
def answer? (effects : List Effect) : Option (Except Failure String) :=
  effects.findSome? fun
    | .reply 0 result => some result
    | _ => none

/-- Something happens to the link while it is being started. -/
def step (s : Start) (signal : Signal) : Start × List Effect :=
  let (link, effects) := s.link.step signal
  match s.phase, answer? effects with
  | .sending batch, some result =>
    let (s, others) := goOn link (batch.answered result)
    (s, effects ++ others)
  | phase, _ => (⟨link, phase⟩, effects)

/-- The start has come to an end. -/
def isOver (s : Start) : Bool :=
  match s.phase with
  | .sending _ => false
  | _ => true

/-- What came of the start. -/
def result (s : Start) : Except Failure Unit :=
  match s.phase with
  | .ready => .ok ()
  | _ => .error .noDevice

/-- The start has taken too long. -/
def expire (s : Start) : Start × List Effect :=
  match s.phase with
  | .sending _ => giveUp s.link
  | _ => (s, [])

end Start

end Stylus
