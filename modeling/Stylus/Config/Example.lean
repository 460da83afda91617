import Stylus.Config.Search
import Stylus.Toml.Printer

/-!
# A configuration as written

`Config.text` writes a configuration as a text of settings, and `Config.exampleText` is such a text
in which everything that can be said is said.
-/

set_option autoImplicit false

namespace Stylus

/-- Speed limits as members of a table. -/
def SpeedLimits.members (limits : SpeedLimits) : List (String × Json) :=
  [("x", .real limits.x), ("y", .real limits.y), ("z", .real limits.z), ("e", .real limits.e)]

namespace Config

/-- A member that may be missing. -/
def optionalMember (name : String) (value : Option String) : List (String × Json) :=
  (value.map fun s => (name, Json.text s)).toList

/-- The general section. -/
def General.toJson (g : General) : Json :=
  .table (optionalMember "log_level" g.logLevel)

/-- The section on the plotter. -/
def Device.toJson (d : Device) : Json :=
  .table
    ([("backend", .text d.backend)] ++ optionalMember "port_name" d.portName
      ++ [("baud", .integer d.baud.toNat), ("probe_timeout_ms", .integer d.probeTimeout),
        ("command_timeout_ms", .integer d.commandTimeout),
        ("init_timeout_ms", .integer d.initTimeout),
        ("speed_limits", .table d.speedLimits.members)])

/-- The section on listening. -/
def Listen.toJson (l : Listen) : Json :=
  .table [("enabled", .boolean l.enabled), ("listen", .text l.address.text),
    ("port", .integer l.port.toNat)]

/-- The section on storage. -/
def Storage.toJson (s : Storage) : Json :=
  .table [("scripts_dir", .text s.scripts), ("layouts_dir", .text s.layouts)]

/-- A configuration as a table. -/
def toJson (c : Config) : Json :=
  .table [("general", c.general.toJson), ("device", c.device.toJson),
    ("motion", c.motion.toJson), ("listen", c.listen.toJson), ("storage", c.storage.toJson)]

/-- A configuration as a text of settings. -/
def text (c : Config) : String :=
  Toml.print [(sectionName, c.toJson)]

/-- A configuration that says what mostly goes without saying. -/
def sample : Config where
  general := { logLevel := some "info" }
  device := { portName := some "/dev/ttyUSB0" }

/-- An example of a configuration. -/
def exampleText : String :=
  sample.text

end Config
end Stylus
