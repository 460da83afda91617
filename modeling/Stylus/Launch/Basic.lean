import Stylus.Config.Example
import Stylus.Launch.Options

/-!
# Starting a server

What the command line and the configuration say is put together to a `Setup`, from which a server
starts, unless something is wrong with either.

* `Launch.setup` — the setup of a server, or why there is none (`StartError`);
* `Launch.run` — what comes of a command line (`Launch`).
-/

set_option autoImplicit false

namespace Stylus

/-- Why a server does not start. -/
inductive StartError where
  | config (e : Config.LoadError)
  | flawed (flaw : Config.Flaw)
  | unknownBackend (name : String) (known : List String)
  | backend (reason : String)

namespace StartError

/-- What is wrong, as it is reported by a program that cannot start. -/
def report : StartError → String
  | config e => e.report
  | flawed flaw => Text.quoted ("Invalid server configuration: " ++ flaw.message)
  | unknownBackend name known =>
    let available := ", ".intercalate known
    Text.quoted s!"Unknown plotter backend: {name} (available: {available})"
  | backend reason => Text.quoted reason

end StartError

/-- What a server starts with. -/
structure Setup where
  connector : Connector
  motion : MotionSettings
  /-- the directories of scripts and layouts -/
  scripts : String
  layouts : String
  /-- where the server listens, if it does -/
  listen : Option (Address × UInt16)
  logLevel : LogLevel

/-- What comes of a command line. -/
inductive Launch where
  | printed (text : String)
  | misused (misuse : Misuse)
  | refused (e : StartError)
  | serving (setup : Setup)

namespace Launch

/-- The name and version of the program. -/
def versionText : String := "tap-server 0.1.0"

/-- How the program is used. -/
def helpText : String :=
  "Usage: tap-server [OPTIONS]\n\nOptions:\n"
    ++ "  -C, --config <FILE>  Path to configuration file\n"
    ++ "      --print-config   Print example configuration and exit\n"
    ++ "  -b, --backend        Plotter backend to use (marlin, dummy)\n"
    ++ "      --port           Serial port the plotter is attached to\n"
    ++ "  -l, --listen         IP address for the JSON TCP listener\n"
    ++ "  -p, --listen-port    Port for the JSON TCP listener\n"
    ++ "  -h, --help           Print help\n"
    ++ "  -V, --version        Print version"

/-- The surroundings of the program: where its configuration is, and the port named there. -/
structure Surroundings extends Config.Surroundings where
  portName : Option String := none

/-- The configuration that options ask for. -/
def configOf (s : Surroundings) (o : Options) : Filing (Except Config.LoadError Config) :=
  match o.config with
  | some path => Config.load path
  | none => do return (← Config.search s.toSurroundings).map (·.1)

/-- The way to the plotter. -/
def connectorOf (s : Surroundings) (o : Options) (c : Config) : Except StartError Connector :=
  let name := o.backend.getD c.device.backend
  if Registry.builtIn.has name then
    match Registry.builtIn.build name (c.serialSettings (o.port.or s.portName)) with
    | .ok connector => .ok connector
    | .error reason => .error (.backend reason)
  else .error (.unknownBackend name Registry.builtIn.names)

/-- Where the server listens. -/
def listenOf (o : Options) (c : Config) : Option (Address × UInt16) :=
  if c.listen.enabled then
    some (o.listen.getD c.listen.address, o.listenPort.getD c.listen.port)
  else none

/-- The setup of a server with a configuration. -/
def setupOf (s : Surroundings) (o : Options) (c : Config) : Except StartError Setup := do
  if let some flaw := c.flaw? then throw (.flawed flaw)
  return {
    connector := ← connectorOf s o c
    motion := c.motion
    scripts := Path.expandHome s.home c.storage.scripts
    layouts := Path.expandHome s.home c.storage.layouts
    listen := listenOf o c
    logLevel := .ofSetting c.general.logLevel }

/-- The setup of a server. -/
def setup (s : Surroundings) (o : Options) : Filing (Except StartError Setup) := do
  match ← configOf s o with
  | .ok c => return setupOf s o c
  | .error e => return .error (.config e)

/-- What comes of a command line. -/
def run (s : Surroundings) (arguments : List String) : Filing Launch := do
  match Options.ofArguments arguments with
  | .error misuse => return .misused misuse
  | .ok .help => return .printed helpText
  | .ok .version => return .printed versionText
  | .ok (.start o) =>
    if o.printConfig then return .printed Config.exampleText
    else
      match ← setup s o with
      | .ok setup => return .serving setup
      | .error e => return .refused e

end Launch

end Stylus
