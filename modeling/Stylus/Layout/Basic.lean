import Stylus.Failure
import Stylus.Script.Basic

/-!
# Layouts

A layout names positions on the screens of the target devices, one set of names for each side.

* `Layout.resolve` — the position that a location of a script stands for;
* `Layout.learn` — records a position;
* `Layout.unlocated` — the locations of a script that the layout lacks.
-/

set_option autoImplicit false

namespace Stylus

/-- A place on the bed of the plotter, in its units. -/
structure Point where
  x : Float
  y : Float

namespace Point

/-- The place half way between two others, to whole units. -/
def midpoint (a b : Point) : Point where
  x := Number.roundAway (a.x / 2 + b.x / 2)
  y := Number.roundAway (a.y / 2 + b.y / 2)

/-- A point as a document. -/
def toJson (p : Point) : Json :=
  .table [("x", .real p.x), ("y", .real p.y)]

/-- The members of a point in a document. -/
def record : Record Point :=
  Point.mk <$> Record.required "x" Reader.real <*> Record.required "y" Reader.real

end Point

/-- Named positions of both sides. -/
structure SidePositions where
  left : Index Point := .empty
  right : Index Point := .empty

namespace SidePositions

/-- The positions of a side. -/
def on (positions : SidePositions) : Side → Index Point
  | .left => positions.left
  | .right => positions.right

/-- Records a position of a side. -/
def insert (side : Side) (name : String) (p : Point) (positions : SidePositions) : SidePositions :=
  match side with
  | .left => { positions with left := positions.left.insert name p }
  | .right => { positions with right := positions.right.insert name p }

/-- The positions of one side as a document. -/
def indexJson (ix : Index Point) : Json :=
  .table (ix.entries.map fun e => (e.1, e.2.toJson))

/-- Positions as a document. -/
def toJson (positions : SidePositions) : Json :=
  .table [("left", indexJson positions.left), ("right", indexJson positions.right)]

/-- The positions of one side in a document. -/
def indexReader : Reader (Index Point) :=
  Reader.map (Point.record.reader "struct Point")

/-- The members of positions in a document. -/
def record : Record SidePositions :=
  SidePositions.mk
    <$> Record.defaulted "left" .empty indexReader
    <*> Record.defaulted "right" .empty indexReader

end SidePositions

/-- A named set of positions. -/
structure Layout where
  name : String := ""
  /-- where the layout was loaded from; not part of its document -/
  source : Option String := none
  positions : SidePositions := {}

namespace Layout

/-- A layout without positions. -/
def new (name : String) : Layout :=
  { name }

/-- The position that a location stands for on a side. -/
def resolve (layout : Layout) (side : Side) (location : String) : Except Failure Point :=
  match (layout.positions.on side).get? location with
  | some p => .ok p
  | none => .error (.unresolvedLocation side location)

/-- Records a position under a name, replacing the one that was there. -/
def learn (layout : Layout) (side : Side) (name : String) (p : Point) : Layout :=
  { layout with positions := layout.positions.insert side name p }

/-- The step may be carried out on the side: it names that side or none. -/
def concerns (side : Side) (step : Step) : Bool :=
  match step.side with
  | some s => s = side
  | none => true

/-- Puts a name in its place among others; a name that is there already is not repeated. -/
def insertName (name : String) : List String → List String
  | [] => [name]
  | n :: rest =>
    if name = n then n :: rest
    else if name < n then name :: n :: rest
    else n :: insertName name rest

/-- Names in order, each once. -/
def sortedNames (names : List String) : List String :=
  names.foldr insertName []

/-- The locations of the script that the layout lacks on the side. -/
def unlocated (layout : Layout) (script : Script) (side : Side) : List String :=
  let locations := (script.steps.filter (concerns side)).flatMap Step.locations
  sortedNames (locations.filter fun name => !(layout.positions.on side).contains name)

/-- A layout as a document. -/
def toJson (layout : Layout) : Json :=
  .table [("name", .text layout.name), ("positions", layout.positions.toJson)]

/-- The members of a layout in a document. -/
def record : Record Layout :=
  (fun name positions => { name, positions })
    <$> Record.defaulted "name" "" Reader.text
    <*> Record.defaulted "positions" {} (SidePositions.record.reader "struct SidePositions")

/-- A layout in a document. -/
def reader : Reader Layout :=
  record.reader "struct Layout"

end Layout

end Stylus
