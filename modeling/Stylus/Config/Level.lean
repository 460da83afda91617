import Stylus.Script.TimeSpec

/-!
# Log levels
-/

set_option autoImplicit false

namespace Stylus

/-- How much is written to the log; each level includes those after it. -/
inductive LogLevel where
  | trace
  | debug
  | info
  | warn
  | error
deriving DecidableEq, Repr

namespace LogLevel

/-- The name of a level. -/
def name : LogLevel → String
  | trace => "TRACE"
  | debug => "DEBUG"
  | info => "INFO"
  | warn => "WARN"
  | error => "ERROR"

/-- The level of a number: the lower, the less is written. -/
def ofNumber? : Nat → Option LogLevel
  | 1 => some error
  | 2 => some warn
  | 3 => some info
  | 4 => some debug
  | 5 => some trace
  | _ => none

/-- The level of a name, in letters of either case, or of a number. -/
def ofWord? (word : String) : Option LogLevel :=
  match (TimeSpec.count? word.toList).bind ofNumber? with
  | some level => some level
  | none => [trace, debug, info, warn, error].find? (·.name = Text.upperAscii word)

/-- The level that a setting asks for; `info` if it asks for none or for one that is not known. -/
def ofSetting (setting : Option String) : LogLevel :=
  (setting.bind fun word => ofWord? (Text.trim word)).getD info

end LogLevel

end Stylus
