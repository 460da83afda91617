import Stylus.Side

/-!
# Failures

What can go wrong between a request and the plotter.  `Failure.kind` is the stable name of a cause
for programs, `Failure.message` its wording for people, and `Failure.isLinkLost` says which causes
mean that the link to the plotter is gone.
-/

set_option autoImplicit false

namespace Stylus

/-- The two kinds of stored documents. -/
inductive DocumentKind where
  | script
  | layout
deriving DecidableEq, Repr

/-- The name of a kind of document. -/
def DocumentKind.name : DocumentKind → String
  | script => "script"
  | layout => "layout"

/-- Why a request fails. -/
inductive Failure where
  | noDevice
  | notHomed
  | unresolvedLocation (side : Side) (location : String)
  | invalidTimeSpec (spec : String)
  | invalidLoopMark (step : Nat)
  /-- no acknowledgment within this many milliseconds -/
  | transportTimeout (limit : Nat)
  | runActive
  | missingLayout (side : Side)
  | unknownAxis (name : String)
  | notFound (kind : DocumentKind) (name : String)
  | invalidDocument (kind : DocumentKind) (name : String) (reason : String)
  | io (reason : String)
deriving DecidableEq, Repr

/-- A span of milliseconds in its largest fitting unit: `2s`, `1.5s`, `30ms`, and `0ns` for none. -/
def spanText (ms : Nat) : String :=
  if 1000 ≤ ms then
    let thousandths := (Nat.toDigits 10 (1000 + ms % 1000)).drop 1
    let places := (thousandths.reverse.dropWhile (· = '0')).reverse
    let fraction := if places.isEmpty then [] else '.' :: places
    String.ofList (Nat.toDigits 10 (ms / 1000) ++ fraction ++ ['s'])
  else if 0 < ms then s!"{ms}ms"
  else "0ns"

namespace Failure

/-- The stable name of the cause. -/
def kind : Failure → String
  | noDevice => "no_device"
  | notHomed => "not_homed"
  | unresolvedLocation _ _ => "unresolved_location"
  | invalidTimeSpec _ => "invalid_time_spec"
  | invalidLoopMark _ => "invalid_loop_mark"
  | transportTimeout _ => "transport_timeout"
  | runActive => "run_active"
  | missingLayout _ => "missing_layout"
  | unknownAxis _ => "unknown_axis"
  | notFound _ _ => "not_found"
  | invalidDocument _ _ _ => "invalid_document"
  | io _ => "io"

/-- The wording. -/
def message : Failure → String
  | noDevice => "no plotter device found"
  | notHomed => "initiate 'home' first"
  | unresolvedLocation side location =>
    s!"location '{location}' is not defined on the {side.name} side of the layout"
  | invalidTimeSpec spec => s!"invalid time spec '{spec}' (expected '<n>ms' or '<n>s')"
  | invalidLoopMark step => s!"loop at step {step} has no preceding mark"
  | transportTimeout limit => s!"no acknowledgment from device within {spanText limit}"
  | runActive => "a script is already running"
  | missingLayout side => s!"no layout supplied for the {side.name} side"
  | unknownAxis name => s!"unknown axis '{name}'"
  | notFound kind name => s!"{kind.name} '{name}' not found"
  | invalidDocument kind name reason => s!"{kind.name} '{name}' is malformed: {reason}"
  | io reason => s!"I/O error: {reason}"

/-- The link to the plotter is gone; the next action has to find the plotter again. -/
def isLinkLost : Failure → Bool
  | noDevice | io _ => true
  | _ => false

end Failure

end Stylus
