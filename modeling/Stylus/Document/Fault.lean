import Stylus.Number.Form
import Stylus.Text.Quoted
import Stylus.Document.Node

/-!
# Faults of documents

A `Fault` says why a document cannot be read as what it should be: a cause, and the names under
which the faulty value is found.  `Cause.message` is the wording of every cause.
-/

set_option autoImplicit false

namespace Stylus

/-- What was found in place of something else. -/
inductive Found where
  | boolean (b : Bool)
  | integer (n : Int)
  | real (x : Float)
  | text (s : String)
  | null
  | sequence
  | map

namespace Found

/-- The kind of value that a node holds, as far as its first character tells; `none` if not even
that can be told. -/
def ofNode : Node → Option Found
  | .null => some null
  | .boolean b => some (boolean b)
  | .integer n => some (integer n)
  | .real x => some (real x)
  | .text s => some (text s)
  | .unreadable | .broken => none
  | .list _ _ => some sequence
  | .table _ _ => some map

/-- The wording of a finding, numbers being written in the form of the document at hand. -/
def message (form : Number.Form) : Found → String
  | boolean b => s!"boolean `{b}`"
  | integer n => s!"integer `{n}`"
  | real x => s!"floating point `{form.render x}`"
  | text s => s!"string {Text.quoted s}"
  | null => "null"
  | sequence => "sequence"
  | map => "map"

end Found

/-- Why a value is refused. -/
inductive Cause where
  /-- the text is no document -/
  | malformed
  | missingField (name : String)
  | duplicateField (name : String)
  | unknownVariant (name : String) (known : List String)
  | invalidType (found : Found) (expected : String)
  | invalidValue (found : Found) (expected : String)
  | invalidLength (length : Nat) (expected : String)
  /-- a reason of the value's own -/
  | refused (reason : String)

/-- A cause, and the names that lead to the faulty value, outermost first. -/
structure Fault where
  cause : Cause
  path : List String := []

namespace Cause

/-- Names in accents, as alternatives. -/
def alternatives : List String → String
  | [] => "there are no variants"
  | [a] => s!"expected `{a}`"
  | [a, b] => s!"expected `{a}` or `{b}`"
  | names => "expected one of " ++ ", ".intercalate (names.map fun name => s!"`{name}`")

/-- The wording of a cause.  A malformed text has no wording beyond that. -/
def message (form : Number.Form) : Cause → String
  | malformed => "syntax"
  | missingField name => s!"missing field `{name}`"
  | duplicateField name => s!"duplicate field `{name}`"
  | unknownVariant name known => s!"unknown variant `{name}`, {alternatives known}"
  | invalidType found expected => s!"invalid type: {found.message form}, expected {expected}"
  | invalidValue found expected => s!"invalid value: {found.message form}, expected {expected}"
  | invalidLength length expected => s!"invalid length {length}, expected {expected}"
  | refused reason => reason

end Cause

namespace Fault

/-- The text makes no sense as a document. -/
def malformed : Fault := ⟨.malformed, []⟩

/-- The fault of a value, as a fault of the table that holds it. -/
def under (name : String) (f : Fault) : Fault :=
  { f with path := name :: f.path }

/-- A document says what is wrong; where it is wrong is not said. -/
def message (f : Fault) : String :=
  f.cause.message Number.Form.document

/-- Settings say what is wrong, and on a second line where. -/
def settingsMessage (f : Fault) : String :=
  let path := ".".intercalate f.path
  let place := if f.path.isEmpty then "" else s!"in `{path}`\n"
  f.cause.message Number.Form.pointedPlain ++ "\n" ++ place

end Fault

end Stylus
