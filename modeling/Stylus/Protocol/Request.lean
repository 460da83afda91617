import Stylus.Motion.Target

/-!
# Requests

A client asks for one thing at a time, in one line of text.

* `Request` — what can be asked for;
* `Envelope` — a request together with the name by which the client will know the reply;
* `Envelope.ofLine` — reads a line.
-/

set_option autoImplicit false

namespace Stylus

/-- What a client can ask for. -/
inductive Request where
  | tap
  | home
  | off
  | info
  | moveAbsolute (axis : Axis) (position : Float)
  | moveRelative (axis : Axis) (distance : Float)
  | moveToPosition (target : MoveTarget)
  | load
  | runScript (script : String) (left right : Option String) (side : Option Side)
  | pauseScript
  | resumeScript
  | stopScript
  | getStatus
  | getPosition
  | getState
  | listScripts
  | listLayouts
  /-- records a position; a coordinate that is not given is that of the head -/
  | learn (layout : String) (side : Side) (position : String) (x y : Option Float)

namespace Request

/-! ## Written form -/

/-- A side that may be missing, as a document. -/
def optionalSide : Option Side → Json
  | some side => side.toJson
  | none => .null

/-- The name of the request. -/
def name : Request → String
  | tap => "tap"
  | home => "home"
  | off => "off"
  | info => "info"
  | moveAbsolute _ _ => "move_absolute"
  | moveRelative _ _ => "move_relative"
  | moveToPosition _ => "move_to_position"
  | load => "load"
  | runScript _ _ _ _ => "run_script"
  | pauseScript => "pause_script"
  | resumeScript => "resume_script"
  | stopScript => "stop_script"
  | getStatus => "get_status"
  | getPosition => "get_position"
  | getState => "get_state"
  | listScripts => "list_scripts"
  | listLayouts => "list_layouts"
  | learn _ _ _ _ _ => "learn"

/-- What the request says besides its name. -/
def arguments : Request → List (String × Json)
  | moveAbsolute axis position => [("axis", axis.toJson), ("position", .real position)]
  | moveRelative axis distance => [("axis", axis.toJson), ("distance", .real distance)]
  | moveToPosition target =>
    [("x", .optionalReal target.x), ("y", .optionalReal target.y), ("z", .optionalReal target.z),
      ("e", .optionalReal target.e)]
  | runScript script left right side =>
    [("script", .text script), ("layout_left", .optionalText left),
      ("layout_right", .optionalText right), ("side", optionalSide side)]
  | learn layout side position x y =>
    [("layout", .text layout), ("side", side.toJson), ("position", .text position),
      ("x", .optionalReal x), ("y", .optionalReal y)]
  | _ => []

/-- The members of a request. -/
def members (request : Request) : List (String × Json) :=
  ("cmd", .text request.name) :: request.arguments

/-- A request as a document. -/
def toJson (request : Request) : Json :=
  .table request.members

/-! ## Reading -/

/-- A number that may be left out. -/
def optionalReal (name : String) : Record (Option Float) :=
  Record.defaulted name none (Reader.optional Reader.real)

/-- A text that may be left out. -/
def optionalText (name : String) : Record (Option String) :=
  Record.defaulted name none (Reader.optional Reader.text)

/-- The reader of a request that says more than its name. -/
def variant (name : String) (record : Record Request) : Reader Request :=
  record.reader ("struct variant ClientCommand::" ++ name)

/-- The choice of a request in a document. -/
def tagged : Tagged Request where
  tag := "cmd"
  title := "internally tagged enum ClientCommand"
  variants := [
    ("tap", Record.unit tap),
    ("home", Record.unit home),
    ("off", Record.unit off),
    ("info", Record.unit info),
    ("move_absolute", variant "MoveAbsolute" <|
      moveAbsolute <$> Record.required "axis" Axis.reader
        <*> Record.required "position" Reader.real),
    ("move_relative", variant "MoveRelative" <|
      moveRelative <$> Record.required "axis" Axis.reader
        <*> Record.required "distance" Reader.real),
    ("move_to_position", variant "MoveToPosition" <|
      (fun x y z e => moveToPosition { x, y, z, e }) <$> optionalReal "x" <*> optionalReal "y"
        <*> optionalReal "z" <*> optionalReal "e"),
    ("load", Record.unit load),
    ("run_script", variant "RunScript" <|
      runScript <$> Record.required "script" Reader.text <*> optionalText "layout_left"
        <*> optionalText "layout_right"
        <*> Record.defaulted "side" none (Reader.optional Side.reader)),
    ("pause_script", Record.unit pauseScript),
    ("resume_script", Record.unit resumeScript),
    ("stop_script", Record.unit stopScript),
    ("get_status", Record.unit getStatus),
    ("get_position", Record.unit getPosition),
    ("get_state", Record.unit getState),
    ("list_scripts", Record.unit listScripts),
    ("list_layouts", Record.unit listLayouts),
    ("learn", variant "Learn" <|
      learn <$> Record.required "layout" Reader.text <*> Record.required "side" Side.reader
        <*> Record.required "position" Reader.text <*> optionalReal "x" <*> optionalReal "y")]

/-- A request in a document. -/
def reader : Reader Request :=
  tagged.reader

end Request

/-- A request, and the name of the reply to it. -/
structure Envelope where
  id : Option String
  request : Request

namespace Envelope

/-- An envelope as a document. -/
def toJson (envelope : Envelope) : Json :=
  .table (("id", .optionalText envelope.id) :: envelope.request.members)

/-- The name of the reply among the members of a table, and the other members, held in memory.  A
second name is refused. -/
def split (origin : Origin) :
    Option (Option String) → List (Option String × Node) →
      Except Fault (Option String × List (Option String × Node))
  | id, [] => .ok (id.getD none, [])
  | _, (none, _) :: _ => Reader.fault .malformed
  | id, (some name, node) :: rest =>
    if name = "id" then
      if id.isSome then Reader.fault (.duplicateField "id")
      else do
        let value ← Reader.optional Reader.text origin node
        split origin (some value) rest
    else do
      let node ← Reader.hold origin node
      let (id, rest) ← split origin id rest
      return (id, (some name, node) :: rest)

/-- A request with a name for the reply beside its own members. -/
def named : Reader Envelope := fun origin node =>
  match node with
  | .table members closed => do
    let (id, rest) ← split origin none members
    Reader.finished closed ()
    let request ← Request.reader .held (.table rest true)
    return ⟨id, request⟩
  | node => Reader.mismatch "struct ClientEnvelope" node

/-- Reads a line: a request with a name for the reply, or else a request alone.  What is wrong with
a line is what is wrong with it as a request alone. -/
def ofLine (line : String) : Except Fault Envelope :=
  match named.ofText line with
  | .ok envelope => .ok envelope
  | .error _ => do
    let request ← Request.reader.ofText line
    return ⟨none, request⟩

end Envelope

end Stylus
