import Stylus.Document.Record
import Stylus.Script.Step

/-!
# Scripts

A script is a named list of steps.  The part between a mark and the loop that goes back to it is
passed through `iterationCount` times.
-/

set_option autoImplicit false

namespace Stylus

/-- The number of passes as written: a number, or a list that begins with it. -/
inductive Iterations where
  | count (n : UInt32)
  | list (ns : List UInt32)
deriving DecidableEq, Repr

/-- The number of passes, if one is given. -/
def Iterations.first? : Iterations → Option UInt32
  | count n => some n
  | list ns => ns.head?

/-- A named list of steps. -/
structure Script where
  name : String := ""
  /-- what the target device shows at the start -/
  initialState : Option String := none
  /-- how many target devices are used -/
  devices : UInt8 := 1
  iterations : Option Iterations := none
  steps : List Step
deriving DecidableEq, Repr

namespace Script

/-- The number of passes; none given, or zero, means one. -/
def iterationCount (script : Script) : UInt32 :=
  match script.iterations.bind Iterations.first? with
  | some n => if n = 0 then 1 else n
  | none => 1

/-- Both sides are in use. -/
def isDual (script : Script) : Bool :=
  2 ≤ script.devices

end Script

/-! ## Documents -/

namespace Iterations

/-- The number of passes as a document. -/
def toJson : Iterations → Json
  | count n => .integer n.toNat
  | list ns => .list (ns.map fun n => .integer n.toNat)

/-- The number of passes in a document. -/
def reader : Reader Iterations := fun origin node => do
  let node ← Reader.hold origin node
  match Reader.whole32 .held node with
  | .ok n => return count n
  | .error _ =>
    match Reader.list Reader.whole32 .held node with
    | .ok ns => return list ns
    | .error _ =>
      Reader.fault (.refused "data did not match any variant of untagged enum Iterations")

end Iterations

namespace Script

/-- A member that is left out when there is nothing to say. -/
def whenSome {α : Type} (name : String) (value : Option α) (toJson : α → Json) :
    List (String × Json) :=
  match value with
  | some a => [(name, toJson a)]
  | none => []

/-- A script as a document. -/
def toJson (script : Script) : Json :=
  .table <|
    [("name", .text script.name)]
      ++ whenSome "initial_state" script.initialState .text
      ++ [("devices", .integer script.devices.toNat)]
      ++ whenSome "iterations" script.iterations Iterations.toJson
      ++ [("steps", .list (script.steps.map Step.toJson))]

/-- The members of a script in a document. -/
def record : Record Script :=
  Script.mk
    <$> Record.defaulted "name" "" Reader.text
    <*> Record.aliased "initialState"
      (Record.defaulted "initial_state" none (Reader.optional Reader.text))
    <*> Record.defaulted "devices" 1 Reader.whole8
    <*> Record.defaulted "iterations" none (Reader.optional Iterations.reader)
    <*> Record.required "steps" (Reader.list Step.reader)

/-- A script in a document. -/
def reader : Reader Script :=
  record.reader "struct Script"

end Script

end Stylus
