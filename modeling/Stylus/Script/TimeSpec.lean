import Stylus.Failure

/-!
# Time specs

A wait is given as a text: a whole number and a unit, `500ms` or `3s`.  It is kept as the text it
was and understood when the wait begins.
-/

set_option autoImplicit false

namespace Stylus
namespace TimeSpec

/-- The units of time specs. -/
inductive Span where
  | milliseconds (n : Nat)
  | seconds (n : Nat)
deriving DecidableEq, Repr

/-- The length of a span in milliseconds. -/
def Span.length : Span → Nat
  | .milliseconds n => n
  | .seconds n => n * 1000

/-- The digits of a whole number, a plus sign being allowed in front. -/
def unsigned : List Char → List Char
  | '+' :: rest => rest
  | cs => cs

/-- The whole number of 64 bits that the characters spell. -/
def count? (cs : List Char) : Option Nat :=
  let digits := unsigned cs
  if digits.isEmpty || !digits.all Char.isDigit then none
  else
    let n := digits.foldl (fun n c => n * 10 + (c.toNat - 48)) 0
    if n < UInt64.size then some n else none

/-- The characters in front of `ending`, if they end in it. -/
def before? (ending cs : List Char) : Option (List Char) :=
  if ending.isSuffixOf cs then some (cs.take (cs.length - ending.length)) else none

/-- The span that the characters spell. -/
def span? (cs : List Char) : Option Span :=
  let cs := Text.trimmed cs
  match before? ['m', 's'] cs with
  | some number => (count? (Text.trimmed number)).map .milliseconds
  | none =>
    match before? ['s'] cs with
    | some number => (count? (Text.trimmed number)).map .seconds
    | none => none

/-- The span of a time spec. -/
def span (spec : String) : Except Failure Span :=
  match span? spec.toList with
  | some s => .ok s
  | none => .error (.invalidTimeSpec spec)

/-- The length of a time spec in milliseconds. -/
def milliseconds (spec : String) : Except Failure Nat :=
  (span spec).map Span.length

end TimeSpec
end Stylus
