import Stylus.Simulation.World

/-!
# The operator

The operator works the controller by hand, starts runs and waits for them.

* `Operator.act` — an operation, once the controller is free;
* `Operator.join` — waits for the end of the run started last.
-/

set_option autoImplicit false

namespace Stylus

/-- What became of the run that the operator started last. -/
inductive Handle where
  /-- there is none, or its end was already taken note of -/
  | nothing
  | running
  | over (result : Except Failure RunOutcome)

/-- A world and the operator's handle on the run. -/
structure Operator where
  world : World
  handle : Handle := .nothing

/-- What came of an operation. -/
inductive Acted where
  | done (result : Except Failure String)
  /-- the controller was not free in time -/
  | busy

/-- What came of waiting for a run. -/
inductive Joined where
  | nothing
  | unfinished
  | over (result : Except Failure RunOutcome)

namespace Operator

/-- How long the operator waits, in milliseconds. -/
def limit : Nat := 60000

/-- The end of the run among reports. -/
def runResult? (reports : List Report) : Option (Except Failure RunOutcome) :=
  reports.findSome? fun
    | .run result => some result
    | .turn _ _ => none

/-- The end of the operator's turn among reports. -/
def turnResult? (reports : List Report) : Option (Except Failure String) :=
  reports.findSome? fun
    | .turn .operator result => some result
    | _ => none

/-- Takes note of the end of the run. -/
def takeNote (o : Operator) : Operator :=
  let handle :=
    match runResult? o.world.bench.reports with
    | some result => .over result
    | none => o.handle
  { o with handle, world := o.world.setBench { o.world.bench with reports := [] } }

/-- Lets time pass. -/
def sleep (o : Operator) (span : Nat) : Operator :=
  takeNote { o with world := o.world.await (fun _ => false) (o.world.now + span) }

/-- The operator has had the controller. -/
def hasActed (w : World) : Bool :=
  (turnResult? w.bench.reports).isSome

/-- The operator has got the controller. -/
def hasController (w : World) : Bool :=
  hasActed w ||
    match w.bench.holder with
    | some turn => turn.owner = .operator
    | none => false

/-- An operation, once the controller is free. -/
def act (o : Operator) (op : Operation) : Operator × Acted :=
  let w := o.world.setBench (o.world.bench.queue .operator [.operate op])
  let w := w.await hasController (w.now + limit)
  if hasController w then
    let w := w.await hasActed Clock.horizon
    match turnResult? w.bench.reports with
    | some result => (takeNote { o with world := w }, .done result)
    | none => (takeNote { o with world := w }, .busy)
  else
    let w := w.setBench (w.bench.withdraw .operator)
    (takeNote { o with world := w }, .busy)

/-- Starts a run. -/
def launch (o : Operator) (r : RunRequest) : Operator × Except Failure Unit :=
  match o.world.launch r with
  | .ok world => ({ world, handle := .running }, .ok ())
  | .error f => (o, .error f)

/-- Waits for the end of the run started last. -/
def join (o : Operator) : Operator × Joined :=
  match o.handle with
  | .nothing => (o, .nothing)
  | .over result => ({ o with handle := .nothing }, .over result)
  | .running =>
    let isOver (w : World) : Bool := (runResult? w.bench.reports).isSome
    let o := takeNote { o with world := o.world.await isOver (o.world.now + limit) }
    match o.handle with
    | .over result => ({ o with handle := .nothing }, .over result)
    | _ => (o, .unfinished)

/-- Changes the wishes of the run. -/
def control (o : Operator) (change : Bench → Bench) : Operator :=
  { o with world := o.world.control change }

end Operator

end Stylus
