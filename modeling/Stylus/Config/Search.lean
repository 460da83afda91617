import Stylus.Config.Basic
import Stylus.Store.Filing
import Stylus.Text.Utf8
import Stylus.Toml.Basic

/-!
# Finding a configuration

A configuration is a section of a settings file, which may hold settings of others too.

* `Config.load` — the configuration of a certain file, which must have it;
* `Config.search` — the first one that is found in the usual places.
-/

set_option autoImplicit false

namespace Stylus
namespace Config

/-- The section that is a configuration. -/
def sectionName : String := "tap-server"

/-- The name of settings files. -/
def fileName : String := "tap-rs.toml"

/-- The directory of settings files, where there are those of others as well. -/
def directoryName : String := "tap-rs"

/-- Why there is no configuration. -/
inductive LoadError where
  | unreadable (path : String) (reason : String)
  /-- the file is no text of settings -/
  | malformed (path : String)
  | faulty (path : String) (fault : Fault)
  | sectionMissing (path : String)

namespace LoadError

/-- What is wrong with the file. -/
def reason : LoadError → String
  | unreadable _ reason => reason
  | malformed _ => Fault.malformed.settingsMessage
  | faulty _ fault => fault.settingsMessage
  | sectionMissing _ => s!"missing [{sectionName}] section"

/-- What is wrong, as it is reported by a program that cannot start. -/
def report : LoadError → String
  | unreadable path reason => s!"ReadError({Text.quoted path}, {Text.quoted reason})"
  | e@(malformed path) | e@(faulty path _) | e@(sectionMissing path) =>
    s!"ParseError({Text.quoted path}, {Text.quoted e.reason})"

end LoadError

/-! ## One file -/

/-- The configuration in the text of a settings file, if it has the section. -/
def ofText (path : String) (s : String) : Except LoadError (Option Config) :=
  match Toml.ofText? s with
  | none => .error (.malformed path)
  | some root =>
    match root.member? sectionName with
    | none => .ok none
    | some node =>
      match reader .settings node with
      | .ok c => .ok (some c)
      | .error fault => .error (.faulty path fault)

/-- The configuration in a settings file, if it has the section. -/
def ofBytes (path : String) (bytes : List UInt8) : Except LoadError (Option Config) :=
  match Text.Utf8.strict bytes with
  | .ok s => ofText path s
  | .error _ => .error (.unreadable path "stream did not contain valid UTF-8")

/-- The configuration of a certain file. -/
def load (path : String) : Filing (Except LoadError Config) := do
  match ← Filing.perform (.read path) with
  | .error e => return .error (.unreadable path e.message)
  | .ok bytes =>
    match ofBytes path bytes with
    | .ok (some c) => return .ok c
    | .ok none => return .error (.sectionMissing path)
    | .error e => return .error e

/-! ## The usual places -/

/-- The surroundings of a program. -/
structure Surroundings where
  /-- the home directory -/
  home : Option String := none
  /-- the directory of the user's settings, if it is not the usual one -/
  configHome : Option String := none

/-- The directory of the user's settings. -/
def Surroundings.configDirectory? (s : Surroundings) : Option String :=
  match s.configHome with
  | some directory =>
    if directory.startsWith "/" then some directory
    else s.home.map (Path.join · ".config")
  | none => s.home.map (Path.join · ".config")

/-- The usual places, the first one first. -/
def places (s : Surroundings) : List String :=
  let user := s.configDirectory?.map fun directory =>
    Path.join (Path.join directory directoryName) fileName
  [fileName] ++ user.toList ++ [Path.join (Path.join "/etc" directoryName) fileName]

/-- The first configuration in certain places, and where it was; a file that is not there, or has no
such section, is passed over. -/
def searchIn : List String → Filing (Except LoadError (Config × Option String))
  | [] => return .ok ({}, none)
  | path :: rest => do
    match ← Filing.perform (.read path) with
    | .error e =>
      if e.isAbsence then searchIn rest else return .error (.unreadable path e.message)
    | .ok bytes =>
      match ofBytes path bytes with
      | .ok (some c) => return .ok (c, some path)
      | .ok none => searchIn rest
      | .error e => return .error e

/-- The first configuration in the usual places, and where it was. -/
def search (s : Surroundings) : Filing (Except LoadError (Config × Option String)) :=
  searchIn (places s)

end Config
end Stylus
