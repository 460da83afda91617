/-!
# Documents as read

Scripts, layouts, requests and settings are documents: nested lists and tables of plain values.  A
document can be faulty, and a fault only matters once reading gets there: a value of the wrong type
in front of it is reported first.  So scanning a text does not fail but yields a `Node`, a tree that
is cut off where the text stops making sense.

* `Node` — the tree; `broken` and `closed := false` mark where it is cut off.
* `Node.isSound` — no fault anywhere, and not nested too deeply to be held in memory.
* `Node.isPassable` — no fault that keeps a reader from skipping the node.
* `Document` — a root node, and whether anything but white space follows it.
-/

set_option autoImplicit false

namespace Stylus

/-- A node of a document as far as its text makes sense. -/
inductive Node where
  | null
  | boolean (b : Bool)
  | integer (n : Int)
  | real (x : Float)
  | text (s : String)
  /-- a well-formed number or text that no value corresponds to -/
  | unreadable
  /-- a text that is no node -/
  | broken
  /-- items up to the closing bracket, or up to a fault that takes its place -/
  | list (items : List Node) (closed : Bool)
  /-- members up to the closing brace, or up to a fault; a name can be unreadable -/
  | table (members : List (Option String × Node)) (closed : Bool)

namespace Node

/-- What the member of a name holds. -/
def member? (node : Node) (name : String) : Option Node :=
  match node with
  | table members _ => (members.find? (·.1 = some name)).map (·.2)
  | _ => none

mutual

/-- The node has no fault and is nested at most `depth` deep. -/
def isSound (depth : Nat) : Node → Bool
  | null | boolean _ | integer _ | real _ | text _ => true
  | unreadable | broken => false
  | list items closed =>
    match depth with
    | 0 => false
    | depth + 1 => areSound depth items && closed
  | table members closed =>
    match depth with
    | 0 => false
    | depth + 1 => membersAreSound depth members && closed

/-- All items have no fault and are nested at most `depth` deep. -/
def areSound (depth : Nat) : List Node → Bool
  | [] => true
  | node :: rest => isSound depth node && areSound depth rest

/-- All members have no fault and are nested at most `depth` deep. -/
def membersAreSound (depth : Nat) : List (Option String × Node) → Bool
  | [] => true
  | (name, node) :: rest => name.isSome && isSound depth node && membersAreSound depth rest

end

mutual

/-- The node can be skipped: its text is well-formed, whatever its values. -/
def isPassable : Node → Bool
  | broken => false
  | list items closed => arePassable items && closed
  | table members closed => membersArePassable members && closed
  | _ => true

/-- All items can be skipped. -/
def arePassable : List Node → Bool
  | [] => true
  | node :: rest => isPassable node && arePassable rest

/-- All members can be skipped. -/
def membersArePassable : List (Option String × Node) → Bool
  | [] => true
  | (_, node) :: rest => isPassable node && membersArePassable rest

end

end Node

/-- A whole text: its node, and whether nothing else follows. -/
structure Document where
  root : Node
  clean : Bool

end Stylus
