import Stylus.Server.Basic
import Stylus.Simulation.Recorder

/-!
# A server in virtual time

A `World` is a server together with a plotter and a plan of who moves when: whoever can move does so
until it has to wait, the others take their turns in the order in which they became able to move,
and time stands still while anyone can move at all.  When nobody can, it jumps to the next moment at
which somebody has slept enough or is answered.

* `World.poll` — somebody moves until it has to wait;
* `World.advance` — time jumps;
* `World.await` — all of this until something has happened.
-/

set_option autoImplicit false

namespace Stylus

/-- A server in virtual time. -/
structure World where
  server : Server
  device : Recorder
  /-- when the outstanding command is answered -/
  due : Option Nat := none
  /-- who can move, the first one first -/
  ready : List Owner := []

namespace World

/-- A world at its beginning. -/
def new (settings : MotionSettings) (device : Recorder) : World :=
  { server := { bench := { controller := { settings } } }, device }

/-- The bench of the server. -/
def bench (w : World) : Bench :=
  w.server.bench

/-- The time. -/
def now (w : World) : Nat :=
  w.bench.now

/-- The bench has changed. -/
def setBench (w : World) (bench : Bench) : World :=
  { w with server := { w.server with bench } }

/-- Whoever is able to move and is not listed yet. -/
def enlist (w : World) (owner : Owner) : World :=
  if w.ready.contains owner then w else { w with ready := w.ready ++ [owner] }

/-- Whoever has just been handed the controller by `giver` is able to move. -/
def enlistHolder (w : World) (giver : Owner) : World :=
  match w.bench.holder with
  | some turn => if turn.owner = giver then w else w.enlist turn.owner
  | none => w

/-- There is a run that can move on from a boundary. -/
def atBoundary (w : World) : Bool :=
  match w.bench.run with
  | some run => run.phase = .boundary
  | none => false

/-- A run that could not move before `w` was changed, and now can, is able to move. -/
def enlistRun (w : World) (before : World) : World :=
  if w.atBoundary && !before.atBoundary then w.enlist .run else w

/-- The plotter answers a command. -/
def reply (w : World) (line : Gcode) : World :=
  let (device, a) := w.device.send line
  { w with device, due := none }.setBench (w.bench.answer a)

/-- The holder of the controller makes a move, if it can. -/
def moveHolder (w : World) (turn : Turn) : Option World :=
  match turn.activity with
  | .ready => some (w.setBench w.bench.proceed)
  | .sleeping time => if time ≤ w.now then some (w.setBench w.bench.wake) else none
  | .asking work =>
    match work.ask with
    | .link =>
      let (device, a) := w.device.link
      some ({ w with device }.setBench (w.bench.answer a))
    | .command line =>
      match w.due with
      | none =>
        if w.device.delay = 0 then some (w.reply line)
        else some { w with due := some (w.now + w.device.delay) }
      | some time => if time ≤ w.now then some (w.reply line) else none

/-- How many moves are made at most before something has happened: a run that never waits makes as
many as its script has passes, so this is beyond what any number of passes calls for. -/
def patience : Nat := 1000000000000000000

/-- The run moves on from boundary to boundary until it has to wait, for at most `fuel` moves. -/
def decideOn (b : Bench) : Nat → Bench
  | 0 => b
  | fuel + 1 =>
    let b := b.decide
    match b.run with
    | some ⟨_, _, .boundary⟩ => decideOn b fuel
    | _ => b

/-- The run moves, if it can. -/
def moveRun (w : World) : Option World :=
  match w.bench.run with
  | none => none
  | some run =>
    match run.phase with
    | .boundary => some (w.setBench (decideOn w.bench patience))
    | .resting time => if time ≤ w.now then some (w.setBench w.bench.poll) else none
    | .working => none

/-- Somebody without the controller makes a move, if it can. -/
def moveOther (w : World) : Owner → Option World
  | .run => w.moveRun
  | .client n => (w.server.move? n).map fun server => enlistRun { w with server } w
  | .operator => none

/-- Somebody makes a move, if it can. -/
def move? (w : World) (owner : Owner) : Option World :=
  match w.bench.holder with
  | some turn =>
    if turn.owner = owner then (w.moveHolder turn).map (·.enlistHolder owner)
    else w.moveOther owner
  | none => w.moveOther owner

/-- Somebody moves until it has to wait, for at most `fuel` moves. -/
def poll (w : World) (owner : Owner) : Nat → World
  | 0 => w
  | fuel + 1 =>
    match w.move? owner with
    | some w => poll w owner fuel
    | none => w

/-- The moments for which somebody waits, and who. -/
def timers (w : World) : List (Nat × Owner) :=
  let holder :=
    match w.bench.holder with
    | some ⟨owner, .sleeping time, _⟩ => [(time, owner)]
    | some ⟨owner, .asking _, _⟩ => (w.due.map fun time => (time, owner)).toList
    | _ => []
  let run :=
    match w.bench.run with
    | some ⟨_, _, .resting time⟩ => [(time, .run)]
    | _ => []
  holder ++ run

/-- Time jumps to the next moment for which somebody waits, but not beyond `limit`. -/
def advance (w : World) (limit : Nat) : World :=
  let now := w.timers.foldl (fun time t => min time t.1) limit
  let w := w.setBench (w.bench.step (.pass (now - w.now)))
  (w.timers.filter (·.1 ≤ now)).foldl (fun w t => w.enlist t.2) w

/-- Lets everyone move and time pass until the operator finds that `isDone`, or until `limit`.  The
operator looks first, and after that only when nobody else can move. -/
def awaitSteps (isDone : World → Bool) (limit : Nat) : Nat → World → World
  | 0, w => w
  | fuel + 1, w =>
    let w := w.poll .operator patience
    if isDone w || limit ≤ w.now then w
    else awaitOthers isDone limit fuel w
where
  /-- Lets the others move until nobody can, then lets time pass. -/
  awaitOthers (isDone : World → Bool) (limit : Nat) : Nat → World → World
  | 0, w => w
  | fuel + 1, w =>
    match w.ready with
    | owner :: rest =>
      let w := { w with ready := rest }
      awaitOthers isDone limit fuel (if owner = .operator then w else w.poll owner patience)
    | [] =>
      let w := w.poll .operator patience
      if isDone w || limit ≤ w.now then w
      else awaitOthers isDone limit fuel (w.advance limit)

/-- Lets everyone move and time pass until the operator finds that `isDone`, or until `limit`. -/
def await (w : World) (isDone : World → Bool) (limit : Nat) : World :=
  awaitSteps isDone limit patience w

/-- Begins a run. -/
def launch (w : World) (r : RunRequest) : Except Failure World := do
  return enlistRun (w.setBench (← w.bench.request r)) w

/-- Changes the wishes of the run. -/
def control (w : World) (change : Bench → Bench) : World :=
  enlistRun (w.setBench (change w.bench)) w

/-- A client sends bytes. -/
def receive (w : World) (n : Nat) (bytes : List UInt8) : World :=
  { w with server := w.server.step (.receive n bytes) }.enlist (.client n)

/-- A client sends nothing more. -/
def hangUp (w : World) (n : Nat) : World :=
  { w with server := w.server.step (.hangUp n) }.enlist (.client n)

end World

end Stylus
