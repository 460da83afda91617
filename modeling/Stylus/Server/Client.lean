import Stylus.Server.Service

/-!
# Clients

A client sends lines and gets a line for each that is not blank, in order.  What has arrived and was
not looked at yet waits, and so does everything behind a request that waits for the controller.

* `Client.next` — the next line, if it is complete;
* `Client.answer` — the line that answers a request.
-/

set_option autoImplicit false

namespace Stylus

/-- How a client's session ended. -/
inductive ClientEnd where
  /-- the client sends nothing more, and everything is answered -/
  | closed
  /-- a line was not text -/
  | faulty (f : Text.Utf8.Fault)
deriving DecidableEq, Repr

/-- A request that waits for the controller. -/
structure Awaited where
  id : Option String
  pending : Pending

/-- The session of a client. -/
structure Client where
  /-- what has arrived and was not looked at -/
  inbox : List UInt8 := []
  /-- nothing more will arrive -/
  hungUp : Bool := false
  /-- the request under way -/
  awaited : Option Awaited := none
  /-- the lines sent to the client, the last one first -/
  replies : List String := []
  ended : Option ClientEnd := none

/-- What comes next from a client. -/
inductive Incoming where
  /-- nothing yet -/
  | nothing
  | line (text : String) (rest : List UInt8)
  | over (ending : ClientEnd)

namespace Client

/-- The first line, with its newline, and what follows it. -/
def cutLine : List UInt8 → Option (List UInt8 × List UInt8)
  | [] => none
  | b :: rest =>
    if b = 10 then some ([b], rest) else (cutLine rest).map fun (line, left) => (b :: line, left)

/-- A line of bytes as text. -/
def decoded (line rest : List UInt8) : Incoming :=
  match Text.Utf8.strict line with
  | .ok text => .line text rest
  | .error f => .over (.faulty f)

/-- What comes next.  Once nothing more will arrive, what is left is a line. -/
def next (c : Client) : Incoming :=
  match cutLine c.inbox with
  | some (line, rest) => decoded line rest
  | none =>
    if !c.hungUp then .nothing
    else if c.inbox.isEmpty then .over .closed
    else decoded c.inbox []

/-- More bytes arrive. -/
def receive (c : Client) (bytes : List UInt8) : Client :=
  if c.ended.isSome then c else { c with inbox := c.inbox ++ bytes }

/-- A line is sent to the client. -/
def reply (c : Client) (r : Response) : Client :=
  { c with replies := r.text :: c.replies }

/-- The request under way is answered. -/
def answer (c : Client) (id : Option String) (result : Except Failure (Option Json)) : Client :=
  { c with awaited := none }.reply ((Response.ofResult result).withId id)

end Client

end Stylus
