import Stylus.Side

/-!
# Steps

A step is one instruction of a script.  In a document it is a list of words, the first of which
names the kind of step: `["tap", "ok", "left"]`, `["wait", "500ms"]`.

* `Step.ofWords` — the step that words spell; words beyond those a step needs do not count;
* `Step.words` — the words that spell a step.
-/

set_option autoImplicit false

namespace Stylus

/-- One instruction of a script. -/
inductive Step where
  | tap (location : String) (side : Option Side)
  /-- drags from one location to another -/
  | swipe (start : String) (goal : String) (side : Option Side)
  /-- holds back the next contact -/
  | wait (spec : String)
  /-- where a loop goes back to -/
  | mark
  /-- goes back to the mark until all passes are made -/
  | loop
  /-- moves to where target devices are placed and taken away -/
  | load
deriving DecidableEq, Repr

/-- Why words spell no step. -/
inductive StepFault where
  | empty
  | missingArgument (kind : String) (place : Nat)
  | unknownKind (word : String)
  | unknownSide (word : String)
deriving DecidableEq, Repr

/-- The wording of a fault. -/
def StepFault.message : StepFault → String
  | empty => "empty step"
  | missingArgument kind place => s!"'{kind}' step is missing argument {place}"
  | unknownKind word => s!"unknown step '{word}'"
  | unknownSide word => s!"unknown side '{word}'"

namespace Step

/-- Short label for listings. -/
def description : Step → String
  | tap location _ => s!"Tap {location}"
  | swipe start goal _ => s!"Swipe {start} to {goal}"
  | wait spec => s!"Wait for {spec}"
  | mark => "Mark"
  | loop => "Loop"
  | load => "Load"

/-- The locations that a step touches, in order. -/
def locations : Step → List String
  | tap location _ => [location]
  | swipe start goal _ => [start, goal]
  | _ => []

/-- The side that a step names. -/
def side : Step → Option Side
  | tap _ side => side
  | swipe _ _ side => side
  | _ => none

/-! ## Words -/

/-- The side at the end of the words of a contact. -/
def sideWords : Option Side → List String
  | some side => [side.name]
  | none => []

/-- The words that spell a step. -/
def words : Step → List String
  | tap location side => ["tap", location] ++ sideWords side
  | swipe start goal side => ["swipe", start, goal] ++ sideWords side
  | wait spec => ["wait", spec]
  | mark => ["mark"]
  | loop => ["loop"]
  | load => ["load"]

/-- The side among the last words of a contact, if there is one. -/
def sideOf : List String → Except StepFault (Option Side)
  | [] => .ok none
  | word :: _ =>
    match Side.ofWord word with
    | .ok side => .ok (some side)
    | .error lowered => .error (.unknownSide lowered)

/-- The step that a kind and its arguments spell. -/
def ofArguments (kind : String) (arguments : List String) : Except StepFault Step :=
  match kind, arguments with
  | "tap", location :: rest => (sideOf rest).map (tap location)
  | "tap", [] => .error (.missingArgument kind 1)
  | "swipe", start :: goal :: rest => (sideOf rest).map (swipe start goal)
  | "swipe", [_] => .error (.missingArgument kind 2)
  | "swipe", [] => .error (.missingArgument kind 1)
  | "wait", spec :: _ => .ok (wait spec)
  | "wait", [] => .error (.missingArgument kind 1)
  | "mark", _ => .ok mark
  | "loop", _ => .ok loop
  | "load", _ => .ok load
  | _, _ => .error (.unknownKind kind)

/-- The step that words spell. -/
def ofWords : List String → Except StepFault Step
  | [] => .error .empty
  | kind :: arguments => ofArguments kind arguments

/-! ## Documents -/

/-- A step as a document. -/
def toJson (step : Step) : Json :=
  .list (step.words.map .text)

/-- A step in a document. -/
def reader : Reader Step :=
  Reader.refine (Reader.list Reader.text) fun words =>
    match ofWords words with
    | .ok step => .ok step
    | .error f => .error f.message

end Step

end Stylus
