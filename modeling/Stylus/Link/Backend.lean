import Stylus.Index
import Stylus.Motion.Gcode

/-!
# Backends

A backend is a way to get at a plotter.  Backends are registered under names and chosen by name when
the server starts; letters of either case and marks between them do not count.

* `Registry` — the backends known;
* `Registry.build` — the connector of a backend;
* `Registry.builtIn` — the serial plotter and one that is not there at all.
-/

set_option autoImplicit false

namespace Stylus

/-- How to reach a plotter on a serial port; spans of time are in milliseconds. -/
structure SerialSettings where
  portName : String := "/dev/ttyUSB0"
  baud : UInt32 := 115200
  /-- how long a port may take to show that a plotter is there -/
  probeTimeout : Nat := 500
  /-- how long a command may take; no limit if missing -/
  commandTimeout : Option Nat := some 120000
  /-- how long the commands that make a fresh link ready may take in all -/
  initTimeout : Nat := 5000
  speedLimits : SpeedLimits := {}

/-- A way to get at a plotter. -/
inductive Connector where
  /-- a plotter that is not there and acknowledges everything -/
  | dummy
  | serial (settings : SerialSettings)

/-- What a connector leads to. -/
def Connector.describe : Connector → String
  | dummy => "dummy plotter"
  | serial settings => s!"{settings.portName} @ {settings.baud} baud"

/-- Makes a connector of settings, or says why not. -/
def Backend := SerialSettings → Except String Connector

namespace Backend

/-- The plotter that is not there. -/
def dummy : Backend := fun _ =>
  .ok .dummy

/-- The plotter on a serial port, which must be named. -/
def marlin : Backend := fun settings =>
  if (Text.trimmed settings.portName.toList).isEmpty then
    .error "marlin backend requires a port name"
  else .ok (.serial settings)

end Backend

/-- Backends by name. -/
structure Registry where
  backends : Index Backend := .empty

namespace Registry

/-- What counts of a name: its ASCII letters, in small letters, and digits. -/
def normalize (name : String) : String :=
  String.ofList ((Text.lowerAscii name).toList.filter Char.isAlphanum)

/-- Registers a backend, replacing the one of that name. -/
def register (registry : Registry) (name : String) (backend : Backend) : Registry :=
  ⟨registry.backends.insert (normalize name) backend⟩

/-- There is a backend of that name. -/
def has (registry : Registry) (name : String) : Bool :=
  registry.backends.contains (normalize name)

/-- The names of all backends, in order. -/
def names (registry : Registry) : List String :=
  registry.backends.entries.map (·.1)

/-- The connector that a backend makes of settings. -/
def build (registry : Registry) (name : String) (settings : SerialSettings) :
    Except String Connector :=
  match registry.backends.get? (normalize name) with
  | some backend => backend settings
  | none => .error s!"Unknown plotter backend: {name}"

/-- Adds the backends that are always there. -/
def withBuiltIn (registry : Registry) : Registry :=
  (registry.register "dummy" .dummy).register "marlin" .marlin

/-- The backends that are always there. -/
def builtIn : Registry :=
  Registry.withBuiltIn {}

end Registry

end Stylus
