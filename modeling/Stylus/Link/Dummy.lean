import Stylus.Motion.Gcode
import Stylus.Text.Blank

/-!
# A plotter that is not there

For work without a plotter there is one that acknowledges every command at once.  It counts the
commands and answers the question for its firmware.
-/

set_option autoImplicit false

namespace Stylus

/-- A plotter that is not there. -/
structure DummyPlotter where
  /-- how many commands were acknowledged -/
  acknowledged : Nat := 0
deriving DecidableEq, Repr

namespace DummyPlotter

/-- What the plotter says its firmware is. -/
def identification : String :=
  "FIRMWARE_NAME:Dummy PROTOCOL_VERSION:1.0 MACHINE_TYPE:tap-rs\nok\n"

/-- The answer to a command, blanks around it not counting. -/
def answer (command : String) : String :=
  if Text.trim command = Gcode.identify.text then identification else "ok\n"

/-- Sends a command. -/
def send (plotter : DummyPlotter) (command : String) : DummyPlotter × String :=
  (⟨plotter.acknowledged + 1⟩, answer command)

/-- Sends commands one after the other. -/
def sendAll (plotter : DummyPlotter) : List String → DummyPlotter × List String
  | [] => (plotter, [])
  | command :: rest =>
    let (plotter, text) := plotter.send command
    let (plotter, texts) := plotter.sendAll rest
    (plotter, text :: texts)

end DummyPlotter

end Stylus
