import Stylus.Bench.Basic
import Stylus.Protocol.Request
import Stylus.Protocol.Response
import Stylus.Store.Basic

/-!
# Carrying out requests

What a request comes to: some are answered at once, some are work on files, and some need a turn at
the controller first (`Service.begin`).  A request to run a script is all of these in order: its
documents are read, the plotter is homed if it is not, and then the run begins (`Service.finish`).
-/

set_option autoImplicit false

namespace Stylus

/-- What a request still has to do when its turn at the controller is over. -/
inductive Pending where
  /-- nothing: it is acknowledged -/
  | acknowledge
  /-- to tell what the firmware said -/
  | identify
  /-- to begin a run -/
  | launch (r : RunRequest)

/-- What a request comes to at first. -/
inductive Begun where
  | answered (b : Bench) (result : Except Failure (Option Json))
  | filing (work : Storing (Option Json))
  /-- the documents of a run have to be read -/
  | preparing (work : Storing RunRequest)
  | turn (stages : List Stage) (pending : Pending)

namespace Service

/-- A table whose members are in the order of their names. -/
def sorted (members : List (String × Json)) : Json :=
  .table (Index.ofList members).entries

/-- What there is to know of the run. -/
def status (r : Runner) : Json :=
  sorted [("status", sorted r.status.members), ("script", .optionalText r.progress.script),
    ("last_error",
      match r.progress.lastError with
      | some f => (Refusal.ofFailure f).toJson
      | none => .null)]

/-! ## Recording positions -/

/-- The point to record: a coordinate that is not given is that of the head. -/
def pointToLearn (pose : Pose) : Option Float → Option Float → Except Failure Point
  | some x, some y => .ok ⟨x, y⟩
  | x, y =>
    if pose.homed then .ok ⟨x.getD pose.x, y.getD pose.y⟩ else .error .notHomed

/-- The layout to record in: the one of that name, or a new one. -/
def layoutToLearn (store : Store) (name : String) : Storing Layout :=
  ExceptT.mk do
    match ← (store.loadLayout name).run with
    | .ok layout => return .ok layout
    | .error (.notFound _ _) => return .ok (.new name)
    | .error f => return .error f

/-- Puts a point into a layout and writes it. -/
def saveLearned (store : Store) (layout : Layout) (side : Side) (position : String) (p : Point) :
    Storing (Option Json) := do
  let _ ← store.saveLayout (layout.learn side position p)
  return some (sorted [("layout", .text layout.name), ("side", side.toJson),
    ("position", .text position), ("x", .real p.x), ("y", .real p.y)])

/-- Records a point. -/
def learn (store : Store) (name : String) (side : Side) (position : String) (p : Point) :
    Storing (Option Json) := do
  let layout ← layoutToLearn store name
  saveLearned store layout side position p

/-! ## Runs -/

/-- A layout that may be asked for. -/
def optionalLayout (store : Store) : Option String → Storing (Option Layout)
  | some name => do return some (← store.loadLayout name)
  | none => return none

/-- Reads the documents of a run. -/
def documents (store : Store) (script : String) (left right : Option String)
    (side : Option Side) : Storing RunRequest := do
  let script ← store.loadScript script
  let left ← optionalLayout store left
  let right ← optionalLayout store right
  return { script, left, right, side }

/-! ## Requests -/

/-- Names as an answer. -/
def names (work : Storing (List String)) : Storing (Option Json) := do
  return some (.list ((← work).map .text))

/-- One operation, which is only acknowledged. -/
def operation (op : Operation) : Begun :=
  .turn [.operate op] .acknowledge

/-- A change of the wishes for the run, answered by what there is to know of it. -/
def controlled (b : Bench) : Begun :=
  .answered b (.ok (some (status b.runner)))

/-- What a request comes to at first. -/
def begin (store : Store) (b : Bench) : Request → Begun
  | .tap => operation .tap
  | .home => operation .home
  | .off => operation .off
  | .info => .turn [.operate .info] .identify
  | .moveAbsolute axis position => operation (.moveAbsolute axis position)
  | .moveRelative axis distance => operation (.moveRelative axis distance)
  | .moveToPosition target => operation (.moveTo target)
  | .load => operation .load
  | .runScript script left right side =>
    if b.runner.progress.running then .answered b (.error .runActive)
    else .preparing (documents store script left right side)
  | .pauseScript => controlled b.pause
  | .resumeScript => controlled b.resume
  | .stopScript => controlled b.stop
  | .getStatus => controlled b
  | .getPosition => .answered b (.ok (some b.controller.published.report.toJson))
  | .getState => .answered b (.ok (some b.controller.published.reported.toJson))
  | .listScripts => .filing (names store.listScripts)
  | .listLayouts => .filing (names store.listLayouts)
  | .learn layout side position x y =>
    match pointToLearn b.controller.published x y with
    | .ok p => .filing (learn store layout side position p)
    | .error f => .answered b (.error f)

/-- What a request comes to when its turn at the controller is over. -/
def finish (b : Bench) (pending : Pending) (result : Except Failure String) :
    Bench × Except Failure (Option Json) :=
  match result with
  | .error f => (b, .error f)
  | .ok text =>
    match pending with
    | .acknowledge => (b, .ok none)
    | .identify => (b, .ok (some (.table [("firmware", .text (Text.trimEnd text))])))
    | .launch r =>
      match b.request r with
      | .ok b => (b, .ok (some (status b.runner)))
      | .error f => (b, .error f)

end Service

end Stylus
