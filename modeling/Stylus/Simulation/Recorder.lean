import Stylus.Link.Dummy
import Stylus.Motion.Controller

/-!
# A recording plotter

For trying things out without a plotter there is one that takes a fixed time for every command,
acknowledges it, and can be told to fail.
-/

set_option autoImplicit false

namespace Stylus

/-- A plotter that is not there. -/
structure Recorder where
  /-- how long a command takes, in milliseconds -/
  delay : Nat := 0
  /-- how many commands still succeed, and how all others fail -/
  fault : Option (Nat × Failure) := none
  /-- how making a link fails -/
  linkFault : Option Failure := none
  /-- how many times a link was asked for -/
  attempts : Nat := 0
  /-- the answer to the question for the firmware -/
  identification : String := "FIRMWARE_NAME:Rec \nok\n"

namespace Recorder

/-- The plotter that a server without a plotter works with. -/
def dummy : Recorder :=
  { identification := DummyPlotter.identification }

/-- A port without a plotter. -/
def absent : Recorder :=
  { linkFault := some .noDevice }

/-- Asks for a link. -/
def link (r : Recorder) : Recorder × Except Failure String :=
  let r := { r with attempts := r.attempts + 1 }
  match r.linkFault with
  | some f => (r, .error f)
  | none => (r, .ok "")

/-- The answer to a command. -/
def reply (r : Recorder) : Gcode → String
  | .identify => r.identification
  | _ => "ok\n"

/-- Sends a command; this is what comes of it after the delay. -/
def send (r : Recorder) (line : Gcode) : Recorder × Except Failure String :=
  match r.fault with
  | some (0, f) => (r, .error f)
  | some (n + 1, f) => ({ r with fault := some (n, f) }, .ok (r.reply line))
  | none => (r, .ok (r.reply line))

/-- Forgets all faults. -/
def recover (r : Recorder) : Recorder :=
  { r with fault := none, linkFault := none }

end Recorder

end Stylus
