import Stylus.Failure
import Stylus.Link.AckBuffer

/-!
# The link to the plotter

One task owns the wire.  It takes requests from a queue, one at a time: it writes the command,
gathers what arrives until a line acknowledges it, answers the request and only then takes the next
one.  What arrives while no command is outstanding is dropped.

* `Signal` — what can happen to a link;
* `Link.step` — what the link does then, and what it lets out (`Effect`).

A command that takes too long is given up and the link goes on, whatever arrives later; but a link
that cannot read or write, or whose other end is gone, is dead.  Every request still waiting is then
answered by `noDevice`, and so is every later one.
-/

set_option autoImplicit false

namespace Stylus

/-- A command to be sent, and who will be told what came of it. -/
structure LinkRequest where
  caller : Nat
  command : String
deriving DecidableEq, Repr

/-- The link to the plotter. -/
structure Link where
  /-- how long a command may take, in milliseconds -/
  limit : Option Nat := none
  /-- what has arrived for the outstanding command -/
  buffer : AckBuffer := {}
  /-- the outstanding command -/
  current : Option LinkRequest := none
  queue : List LinkRequest := []
  alive : Bool := true
deriving DecidableEq, Repr

/-- What can happen to a link. -/
inductive Signal where
  /-- someone wants a command sent -/
  | submit (r : LinkRequest)
  /-- the link is free for the next request -/
  | take
  /-- bytes were read -/
  | received (bytes : List UInt8)
  /-- the outstanding command has taken too long -/
  | expired
  /-- the other end is gone -/
  | ended
  | readFailed (reason : String)
  | writeFailed (reason : String)
  /-- the link is given up -/
  | aborted
deriving DecidableEq, Repr

/-- What a link lets out. -/
inductive Effect where
  /-- a line on the wire, without its newline -/
  | write (command : String)
  | reply (caller : Nat) (result : Except Failure String)

namespace Link

/-- The outstanding command comes to an end. -/
def settle (link : Link) (result : Except Failure String) : Link × List Effect :=
  match link.current with
  | some r => ({ link with current := none }, [.reply r.caller result])
  | none => (link, [])

/-- The link dies: whoever still waits learns that there is no plotter. -/
def die (link : Link) : Link × List Effect :=
  ({ link with alive := false, queue := [] },
    link.queue.map fun r => .reply r.caller (.error .noDevice))

/-- The outstanding command fails, and the link dies. -/
def fail (link : Link) (f : Failure) : Link × List Effect :=
  let (link, told) := link.settle (.error f)
  let (link, others) := link.die
  (link, told ++ others)

/-- Takes the next request: whatever is left from before is dropped, and the command is written. -/
def takeNext (link : Link) : Link × List Effect :=
  match link.current, link.queue with
  | none, r :: rest =>
    ({ link with buffer := link.buffer.takePending.2, current := some r, queue := rest },
      [.write r.command])
  | _, _ => (link, [])

/-- Bytes were read. -/
def receive (link : Link) (bytes : List UInt8) : Link × List Effect :=
  match link.current with
  | none => (link, [])
  | some _ =>
    match (link.buffer.push bytes).takeResponse with
    | (some response, buffer) => { link with buffer }.settle (.ok response)
    | (none, buffer) => ({ link with buffer }, [])

/-- The outstanding command has taken too long. -/
def expire (link : Link) : Link × List Effect :=
  match link.limit with
  | some limit => link.settle (.error (.transportTimeout limit))
  | none => (link, [])

/-- What a link that is alive does. -/
def stepAlive (link : Link) : Signal → Link × List Effect
  | .submit r => ({ link with queue := link.queue ++ [r] }, [])
  | .take => link.takeNext
  | .received bytes => link.receive bytes
  | .expired => link.expire
  | .ended => link.fail (.io "plotter link closed")
  | .readFailed reason => link.fail (.io reason)
  | .writeFailed reason => link.fail (.io reason)
  | .aborted => link.fail .noDevice

/-- What a link does. -/
def step (link : Link) (signal : Signal) : Link × List Effect :=
  if link.alive then link.stepAlive signal
  else
    match signal with
    | .submit r => (link, [.reply r.caller (.error .noDevice)])
    | _ => (link, [])

/-- What a link does in the course of many signals. -/
def steps (link : Link) : List Signal → Link × List Effect
  | [] => (link, [])
  | signal :: rest =>
    let (link, effects) := link.step signal
    let (link, others) := link.steps rest
    (link, effects ++ others)

end Link

end Stylus
