import Stylus.Launch.Basic
import Stylus.Simulation.World

/-!
# The program

The command line is carried out here, and nothing is decided: `Launch.run` says what is to be
printed or served.  A server takes its requests from the standard input, one a line, and replies on
the standard output; its documents are held in memory, and a port without a plotter stands for every
serial port.
-/

set_option autoImplicit false

namespace Stylus
namespace Program

/-- The reason of a failed act. -/
def reasonOf : IO.Error → FileError
  | .noFileOrDirectory _ _ _ => .missing
  | .alreadyExists _ _ _ => .occupied
  | .inappropriateType _ 20 _ => .notDirectory
  | .inappropriateType _ 21 _ => .isDirectory
  | e => .other (toString e)

/-- Reads a file of this machine. -/
def readFile (path : String) : IO (Except FileError (List UInt8)) := do
  try
    let bytes ← IO.FS.readBinFile path
    return .ok bytes.toList
  catch e =>
    return .error (reasonOf e)

/-- Carries out an act on this machine, where files are only read. -/
def perform : (a : FileAct) → IO (Except FileError a.Result)
  | .read path => readFile path
  | .list _ | .makeDirectory _ | .write _ _ | .rename _ _ =>
    return .error (.other "files are only read")

/-- Carries out work on this machine. -/
def carryOut {α : Type} : Filing α → IO α
  | .done a => return a
  | .act a next => do carryOut (next (← perform a))

/-- The surroundings of this program. -/
def surroundings : IO Launch.Surroundings := do
  return {
    home := ← IO.getEnv "HOME"
    configHome := ← IO.getEnv "XDG_CONFIG_HOME"
    portName := ← IO.getEnv "PORT_NAME" }

/-- The plotter that a connector leads to. -/
def plotterOf : Connector → Recorder
  | .dummy => .dummy
  | .serial _ => .absent

/-- The server of a setup. -/
def worldOf (setup : Setup) : World :=
  let w := World.new setup.motion (plotterOf setup.connector)
  { w with server := { w.server with store := ⟨setup.scripts, setup.layouts⟩ } }

/-- The client on the standard streams. -/
def client : Nat := 0

/-- Everything that the client asked for is answered. -/
def isAnswered (w : World) : Bool :=
  (w.server.client client).awaited.isNone

/-- Takes the replies to the client, the first one first. -/
def takeReplies (w : World) : List String × World :=
  let c := w.server.client client
  (c.replies.reverse, { w with server := w.server.setClient client { c with replies := [] } })

/-- Lets the world go on until everything is answered, and prints the replies. -/
def answer (output : IO.FS.Stream) (w : World) : IO World := do
  let w := (w.await (fun _ => false) (w.now + 1)).await isAnswered (w.now + 60000)
  let (replies, w) := takeReplies w
  for reply in replies do
    output.putStrLn reply
  output.flush
  return w

/-- Serves the client until it sends nothing more. -/
partial def serve (input output : IO.FS.Stream) (w : World) : IO Unit := do
  let line ← input.getLine
  if line.isEmpty then
    let _ ← answer output (w.hangUp client)
  else
    serve input output (← answer output (w.receive client (Text.Utf8.encode line)))

/-- Carries out what comes of the command line; the result is the exit code. -/
def carryOutLaunch : Launch → IO UInt32
  | .printed text => do
    IO.println text
    return 0
  | .misused misuse => do
    IO.eprintln s!"error: {misuse.message}"
    return 2
  | .refused e => do
    IO.eprintln s!"Error: {e.report}"
    return 1
  | .serving setup => do
    serve (← IO.getStdin) (← IO.getStdout) (worldOf setup)
    return 0

end Program
end Stylus

/-- The program. -/
def main (arguments : List String) : IO UInt32 := do
  let launch ← Stylus.Program.carryOut (Stylus.Launch.run (← Stylus.Program.surroundings) arguments)
  Stylus.Program.carryOutLaunch launch
