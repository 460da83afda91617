import Stylus.Config.Address
import Stylus.Config.Level
import Stylus.Link.Backend
import Stylus.Motion.Settings

/-!
# Configuration

What a server can be told: how much to log, how to reach the plotter, how to move, where to listen
and where the scripts and layouts are.  Everything has a value to fall back on.

* `Config` — a configuration, and `Config.reader`;
* `Config.serialSettings` — how to reach the plotter;
* `Config.flaw?` — what keeps a server from starting with it.
-/

set_option autoImplicit false

namespace Stylus

namespace Config

/-- What concerns everything. -/
structure General where
  logLevel : Option String := none

/-- How to reach the plotter; spans of time are in milliseconds. -/
structure Device where
  /-- the name of the backend -/
  backend : String := "marlin"
  portName : Option String := none
  baud : UInt32 := 115200
  probeTimeout : Nat := 500
  /-- how long a command may take; zero for no limit -/
  commandTimeout : Nat := 120000
  initTimeout : Nat := 5000
  speedLimits : SpeedLimits := {}

/-- Where the server listens. -/
structure Listen where
  enabled : Bool := true
  address : Address := .loopback
  port : UInt16 := 8090

/-- Where scripts and layouts are. -/
structure Storage where
  scripts : String := "scripts"
  layouts : String := "layouts"

end Config

/-- A configuration. -/
structure Config where
  general : Config.General := {}
  device : Config.Device := {}
  motion : MotionSettings := {}
  listen : Config.Listen := {}
  storage : Config.Storage := {}

namespace Config

/-! ## Reading -/

/-- An address in settings. -/
def addressReader : Reader Address :=
  Reader.refine (Reader.textAs "IP address") fun s =>
    match Address.ofText? s with
    | some address => .ok address
    | none => .error "invalid IP address syntax"

/-- A whole number of 64 bits. -/
def whole64 : Reader Nat :=
  Reader.whole "u64" UInt64.size

/-- A whole number of 16 bits. -/
def whole16 : Reader UInt16 :=
  Reader.bind (Reader.whole "u16" UInt16.size) fun n => .ok n.toUInt16

/-- A path. -/
def path : Reader String :=
  Reader.textAs "path string"

/-- A field with a value to fall back on. -/
def field {α : Type} (name : String) (value : α) (r : Reader α) : Record α :=
  Record.defaulted name value r

/-- The members of the general section. -/
def General.record : Record General :=
  General.mk <$> field "log_level" none (Reader.optional Reader.text)

/-- The members of the section on the plotter. -/
def Device.record : Record Device :=
  Device.mk
    <$> field "backend" "marlin" Reader.text
    <*> field "port_name" none (Reader.optional Reader.text)
    <*> field "baud" 115200 Reader.whole32
    <*> field "probe_timeout_ms" 500 whole64
    <*> field "command_timeout_ms" 120000 whole64
    <*> field "init_timeout_ms" 5000 whole64
    <*> field "speed_limits" {} (SpeedLimits.record.reader "struct SpeedLimits")

/-- The members of the section on listening. -/
def Listen.record : Record Listen :=
  Listen.mk
    <$> field "enabled" true Reader.boolean
    <*> field "listen" .loopback addressReader
    <*> field "port" 8090 whole16

/-- The members of the section on storage. -/
def Storage.record : Record Storage :=
  Storage.mk <$> field "scripts_dir" "scripts" path <*> field "layouts_dir" "layouts" path

/-- The sections of a configuration. -/
def record : Record Config :=
  Config.mk
    <$> field "general" {} (General.record.reader "struct GeneralConfig")
    <*> field "device" {} (Device.record.reader "struct DeviceConfig")
    <*> field "motion" {} MotionSettings.reader
    <*> field "listen" {} (Listen.record.reader "struct ListenConfig")
    <*> field "storage" {} (Storage.record.reader "struct StorageConfig")

/-- A configuration in settings. -/
def reader : Reader Config :=
  record.reader "struct ServerConfig"

/-! ## Use -/

/-- How to reach the plotter; a port given elsewhere takes the place of the one here. -/
def serialSettings (c : Config) (port : Option String) : SerialSettings where
  portName := (port.orElse fun _ => c.device.portName).getD ""
  baud := c.device.baud
  probeTimeout := c.device.probeTimeout
  commandTimeout := if c.device.commandTimeout = 0 then none else some c.device.commandTimeout
  initTimeout := c.device.initTimeout
  speedLimits := c.device.speedLimits

/-! ## What must hold -/

/-- What is wrong with a configuration. -/
inductive Flaw where
  | logLevel (given : String)
  | baud
  | probeTimeout
  | initTimeout
  | speedLimits
  | feedRate
  | listenPort
deriving DecidableEq, Repr

/-- The wording of a flaw. -/
def Flaw.message : Flaw → String
  | logLevel given =>
    s!"[general].log_level '{given}' is invalid "
      ++ "(expected one of: trace, debug, info, warn, error)"
  | baud => "[device].baud must be > 0"
  | probeTimeout => "[device].probe_timeout_ms must be > 0"
  | initTimeout => "[device].init_timeout_ms must be > 0"
  | speedLimits => "[device.speed_limits] values must be > 0"
  | feedRate => "[motion].feed_rate must be > 0"
  | listenPort => "[listen].port must be > 0 when listener is enabled"

/-- The log levels that a configuration may name. -/
def levelNames : List String :=
  ["trace", "debug", "info", "warn", "error"]

/-- A speed is a number above zero, and finite. -/
def isSpeed (x : Float) : Bool :=
  Number.isFinite x && !(x <= 0)

/-- The log level, if there is one, is known. -/
def hasKnownLevel (c : Config) : Bool :=
  c.general.logLevel.all levelNames.contains

/-- All speed limits are speeds. -/
def hasSpeedLimits (c : Config) : Bool :=
  let limits := c.device.speedLimits
  [limits.x, limits.y, limits.z, limits.e].all isSpeed

/-- The first flaw, if there is any. -/
def flaw? (c : Config) : Option Flaw :=
  if !c.hasKnownLevel then some (.logLevel (c.general.logLevel.getD ""))
  else if c.device.baud = 0 then some .baud
  else if c.device.probeTimeout = 0 then some .probeTimeout
  else if c.device.initTimeout = 0 then some .initTimeout
  else if !c.hasSpeedLimits then some .speedLimits
  else if !isSpeed c.motion.feedRate then some .feedRate
  else if c.listen.enabled && c.listen.port = 0 then some .listenPort
  else none

end Config

end Stylus
