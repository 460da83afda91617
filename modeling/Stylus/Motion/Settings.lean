import Stylus.Motion.Gcode

/-!
# Motion settings

Feed rate, depths of contacts, and where the head goes when target devices are placed or taken away.
-/

set_option autoImplicit false

namespace Stylus

/-- The adjustable numbers of motion. -/
structure MotionSettings where
  /-- feed rate of moves to a position -/
  feedRate : Float := 2500
  /-- how far the stylus goes out and back for a tap -/
  tapDepth : Float := 2
  /-- how far the stylus goes out and back during a swipe -/
  swipeDepth : Float := 3
  /-- the axis that moves for loading -/
  loadAxis : Axis := .y
  /-- where that axis goes -/
  loadPosition : Float := 200

namespace MotionSettings

/-- Settings as a document. -/
def toJson (s : MotionSettings) : Json :=
  .table [("feed_rate", .real s.feedRate), ("tap_depth", .real s.tapDepth),
    ("swipe_depth", .real s.swipeDepth), ("load_axis", s.loadAxis.toJson),
    ("load_position", .real s.loadPosition)]

/-- The members of motion settings. -/
def record : Record MotionSettings :=
  MotionSettings.mk
    <$> Record.defaulted "feed_rate" 2500 Reader.real
    <*> Record.defaulted "tap_depth" 2 Reader.real
    <*> Record.defaulted "swipe_depth" 3 Reader.real
    <*> Record.defaulted "load_axis" .y Axis.reader
    <*> Record.defaulted "load_position" 200 Reader.real

/-- Motion settings in a document. -/
def reader : Reader MotionSettings :=
  record.reader "struct MotionSettings"

end MotionSettings

end Stylus
