import Stylus.Motion.Axis
import Stylus.Document.Record

/-!
# Motion commands

The commands that the firmware of the plotter understands, and their text on the wire.

* `Gcode` — a command;
* `Gcode.text` — its line, without the newline;
* `Gcode.initialization` — the commands that make a fresh link ready.
-/

set_option autoImplicit false

namespace Stylus

/-- Upper limits of the feed rate, one for each axis. -/
structure SpeedLimits where
  x : Float := 2500
  y : Float := 2500
  z : Float := 2500
  e : Float := 500

/-- A command of the firmware. -/
inductive Gcode where
  /-- moves all axes to their origin -/
  | home
  /-- moves one axis to its origin -/
  | homeAxis (axis : Axis)
  /-- the following moves name positions -/
  | absolute
  /-- the following moves name distances -/
  | relative
  /-- moves of the stylus drive name distances, whatever the other axes do -/
  | relativeStylus
  /-- moves the named axes -/
  | move (words : List (Axis × Float)) (feed : Option Float)
  /-- waits until all moves are made -/
  | finish
  | motorsOff
  /-- asks for the identification of the firmware -/
  | identify
  | fanOff
  /-- lets the stylus drive move although nothing is heated -/
  | allowCold
  | maxFeed (limits : SpeedLimits)

namespace Gcode

/-- A coordinate as the firmware expects it: a zero has no sign, a whole number no point. -/
def coordinate (value : Float) : String :=
  if value == 0 then "0" else Number.Form.plain.render value

/-- A word of a move. -/
def word (w : Axis × Float) : String :=
  w.1.name ++ coordinate w.2

/-- The word that sets the feed rate. -/
def feedWord : Option Float → List String
  | some feed => ["F" ++ coordinate feed]
  | none => []

/-- The line of a command. -/
def text : Gcode → String
  | home => "G28"
  | homeAxis axis => "G28 " ++ axis.name
  | absolute => "G90"
  | relative => "G91"
  | relativeStylus => "M83"
  | move words feed => " ".intercalate ("G0" :: (words.map word ++ feedWord feed))
  | finish => "M400"
  | motorsOff => "M18"
  | identify => "M115"
  | fanOff => "M107"
  | allowCold => "M302 P1"
  | maxFeed limits =>
    " ".intercalate
      ("M203" :: [(Axis.e, limits.e), (.x, limits.x), (.y, limits.y), (.z, limits.z)].map word)

/-- The commands that make a fresh link ready, in order. -/
def initialization (limits : SpeedLimits) : List Gcode :=
  [fanOff, allowCold, absolute, relativeStylus, maxFeed limits]

end Gcode

namespace SpeedLimits

/-- The members of speed limits in settings. -/
def record : Record SpeedLimits :=
  SpeedLimits.mk
    <$> Record.defaulted "x" 2500 Reader.real
    <*> Record.defaulted "y" 2500 Reader.real
    <*> Record.defaulted "z" 2500 Reader.real
    <*> Record.defaulted "e" 500 Reader.real

end SpeedLimits

end Stylus
