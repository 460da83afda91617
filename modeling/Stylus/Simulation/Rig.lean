import Stylus.Link.Start
import Stylus.Server.Client

/-!
# A plotter on a wire, in virtual time

A `Rig` is a link and a plotter that follows a script: it answers each line it reads with parts,
each after a delay, and reads the next line only after the last part.  Time stands still while the
link or the plotter can do anything, and then jumps to the next moment for which one of them waits.

* `Rig.send`, `Rig.sendAll`, `Rig.sendTogether` — commands over the link;
* `Rig.start` — starts a link;
* `Rig.probe` — asks a wire whether there is a plotter.
-/

set_option autoImplicit false

namespace Stylus

/-- A part of an answer. -/
structure AnswerPart where
  delay : Nat := 0
  bytes : List UInt8 := []
  /-- the plotter goes away -/
  close : Bool := false

/-- A plotter that follows a script. -/
structure Firmware where
  /-- the answers to the first lines -/
  rules : List (List AnswerPart) := []
  /-- the answer to all later lines -/
  otherwise : List AnswerPart := [{ bytes := Text.Utf8.encode "ok\n" }]
  /-- the parts still to be given -/
  pending : List AnswerPart := []
  /-- when the next part is due -/
  due : Option Nat := none
  closed : Bool := false
  /-- what was written to the plotter and not read yet -/
  inbox : List UInt8 := []
  /-- the lines read, the last one first -/
  seen : List String := []

namespace Firmware

/-- A line without its end, which is a newline or a carriage return and a newline. -/
def lineText (line : List UInt8) : String :=
  let body := line.dropLast
  Text.Utf8.lossy (if body.getLast? = some 13 then body.dropLast else body)

/-- Reads a line. -/
def readLine (f : Firmware) : Option Firmware :=
  match Client.cutLine f.inbox with
  | none => none
  | some (line, inbox) =>
    let seen := lineText line :: f.seen
    match f.rules with
    | rule :: rules => some { f with inbox, seen, rules, pending := rule }
    | [] => some { f with inbox, seen, pending := f.otherwise }

/-- Gives a part of an answer. -/
def give (f : Firmware) (part : AnswerPart) (rest : List AnswerPart) : Firmware × List UInt8 :=
  if part.close then ({ f with closed := true, pending := [], due := none }, [])
  else ({ f with pending := rest, due := none }, part.bytes)

/-- Does something, if there is anything to do; the bytes go to the link. -/
def move? (f : Firmware) (now : Nat) : Option (Firmware × List UInt8) :=
  if f.closed then none
  else
    match f.pending with
    | [] => f.readLine.map fun f => (f, [])
    | part :: rest =>
      match f.due with
      | some time => if time ≤ now then some (f.give part rest) else none
      | none =>
        if part.delay = 0 then some (f.give part rest)
        else some ({ f with due := some (now + part.delay) }, [])

end Firmware

/-- A link and a plotter. -/
structure Rig where
  now : Nat := 0
  /-- the link, which may still be starting -/
  host : Start := {}
  /-- when the outstanding command will have taken too long -/
  deadline : Option Nat := none
  firmware : Firmware
  /-- what was written to the link and not read yet -/
  inbox : List UInt8 := []
  replies : List (Nat × Except Failure String) := []

namespace Rig

/-- The link. -/
def link (rig : Rig) : Link :=
  rig.host.link

/-- The largest number of bytes read at once. -/
def chunk : Nat := 256

/-- What the link lets out reaches the plotter, or whoever waits. -/
def apply (rig : Rig) : Effect → Rig
  | .write command =>
    let inbox := rig.firmware.inbox ++ Text.Utf8.encode (command ++ "\n")
    { rig with
      firmware := { rig.firmware with inbox }
      deadline := rig.link.limit.map (rig.now + ·) }
  | .reply caller result =>
    { rig with replies := rig.replies ++ [(caller, result)], deadline := none }

/-- The link has moved on, and has let something out. -/
def follow (rig : Rig) (moved : Start × List Effect) : Rig :=
  moved.2.foldl apply { rig with host := moved.1 }

/-- Something happens to the link. -/
def signal (rig : Rig) (s : Signal) : Rig :=
  rig.follow (rig.host.step s)

/-- The outstanding command has taken too long. -/
def isLate (rig : Rig) : Bool :=
  match rig.deadline with
  | some time => time ≤ rig.now && rig.link.current.isSome
  | none => false

/-- The plotter does something, if there is anything to do. -/
def moveFirmware (rig : Rig) : Option Rig :=
  (rig.firmware.move? rig.now).map fun (firmware, bytes) =>
    { rig with firmware, inbox := rig.inbox ++ bytes }

/-- The outstanding command is given up if it has taken too long. -/
def expireIfLate (rig : Rig) : Rig :=
  if rig.isLate then rig.signal .expired else rig

/-- The link does something, if there is anything to do: what has arrived is read first.  A command
that may take no time at all is given up as soon as it is written. -/
def moveLink (rig : Rig) : Option Rig :=
  if !rig.link.alive then none
  else if !rig.inbox.isEmpty then
    some ({ rig with inbox := rig.inbox.drop chunk }.signal (.received (rig.inbox.take chunk)))
  else if rig.firmware.closed then some (rig.signal .ended)
  else if rig.isLate then some rig.expireIfLate
  else if rig.link.current.isNone && !rig.link.queue.isEmpty then
    some (rig.signal .take).expireIfLate
  else none

/-- The plotter or the link does something, if there is anything to do.  The plotter goes first: it
gives all parts that need no delay before the link reads any of them. -/
def move? (rig : Rig) : Option Rig :=
  rig.moveFirmware.orElse fun _ => rig.moveLink

/-- The link and the plotter do all that there is to do, in at most `fuel` moves. -/
def settle : Nat → Rig → Rig
  | 0, rig => rig
  | fuel + 1, rig =>
    match rig.move? with
    | some rig => settle fuel rig
    | none => rig

/-- How many moves are made at most before something has happened. -/
def patience : Nat := 1000000

/-- Time jumps to the next moment for which somebody waits, but not beyond `limit`. -/
def advance (rig : Rig) (limit : Nat) : Rig :=
  let timers := (if rig.link.current.isSome then rig.deadline.toList else [])
    ++ rig.firmware.due.toList
  { rig with now := timers.foldl min limit }

/-- Lets time pass until `isDone`, or until `limit`. -/
def awaitSteps (isDone : Rig → Bool) (limit : Nat) : Nat → Rig → Rig
  | 0, rig => rig
  | fuel + 1, rig =>
    if isDone rig || limit ≤ rig.now then rig
    else
      let rig := rig.settle patience
      if isDone rig then rig else awaitSteps isDone limit fuel (rig.advance limit)

/-- Lets time pass until `isDone`, or until `limit`. -/
def await (rig : Rig) (isDone : Rig → Bool) (limit : Nat) : Rig :=
  awaitSteps isDone limit patience rig

/-- Lets a span of time pass. -/
def sleep (rig : Rig) (span : Nat) : Rig :=
  rig.await (fun _ => false) (rig.now + span)

/-! ## Commands -/

/-- A caller has its answer. -/
def isAnswered (caller : Nat) (rig : Rig) : Bool :=
  rig.replies.any (·.1 = caller)

/-- Takes the answer of a caller. -/
def takeAnswer (rig : Rig) (caller : Nat) : Rig × Option (Except Failure String) :=
  ({ rig with replies := rig.replies.filter (·.1 ≠ caller) },
    (rig.replies.find? (·.1 = caller)).map (·.2))

/-- A moment that never comes. -/
def never : Nat := UInt64.size

/-- Sends a command and waits for its answer. -/
def send (rig : Rig) (command : String) : Rig × Except Failure String :=
  let rig := (rig.signal (.submit ⟨0, command⟩)).await (isAnswered 0) never
  let (rig, a) := rig.takeAnswer 0
  (rig, a.getD (.error .noDevice))

/-- Sends what is left of a batch. -/
def sendBatch : Nat → Rig → Batched → Rig × Except Failure (List String)
  | _, rig, .over result => (rig, result)
  | 0, rig, _ => (rig, .error .noDevice)
  | fuel + 1, rig, .sending command batch =>
    let (rig, result) := rig.send command
    sendBatch fuel rig (batch.answered result)

/-- Sends commands one after the other. -/
def sendAll (rig : Rig) (commands : List String) : Rig × Except Failure (List String) :=
  sendBatch (commands.length + 1) rig (Batch.next ⟨commands, []⟩)

/-- Sends commands all at once, each for a caller of its own. -/
def sendTogether (rig : Rig) (commands : List String) : Rig × List (Except Failure String) :=
  let submit (rig : Rig) (c : String × Nat) : Rig := rig.signal (.submit ⟨c.2 + 1, c.1⟩)
  let rig := commands.zipIdx.foldl submit rig
  let rig := rig.await (fun rig => commands.length ≤ rig.replies.length) never
  let answers := commands.zipIdx.map fun c =>
    ((rig.replies.find? (·.1 = c.2 + 1)).map (·.2)).getD (.error .noDevice)
  ({ rig with replies := [] }, answers)

/-! ## Links -/

/-- The link of a wire, without a start. -/
def attach (rig : Rig) (limit : Option Nat) : Rig :=
  { rig with host := { link := { limit } } }

/-- Starts a link within a span of time; a link that cannot be started is given up. -/
def start (rig : Rig) (limit : Option Nat) (span : Nat) (limits : SpeedLimits) :
    Rig × Except Failure Unit :=
  let rig := rig.follow (Start.begin limit limits)
  let rig := rig.await (·.host.isOver) (rig.now + span)
  let rig := { rig.follow rig.host.expire with replies := [] }
  (rig, rig.host.result)

/-- Asks whether there is a plotter, within a span of time. -/
def probe (rig : Rig) (span : Nat) : Rig × Except Failure Unit :=
  let (rig, result) := (rig.attach (some span)).send Gcode.finish.text
  (rig, result.map fun _ => ())

/-- The plotter writes of its own accord. -/
def unsolicited (rig : Rig) (bytes : List UInt8) : Rig :=
  if rig.firmware.closed then rig else { rig with inbox := rig.inbox ++ bytes }

/-- The plotter goes away. -/
def unplug (rig : Rig) : Rig :=
  { rig with firmware := { rig.firmware with closed := true } }

end Rig

end Stylus
