import Stylus.Document.Fault
import Stylus.Document.Json
import Stylus.Document.Scan
import Stylus.Index

/-!
# Readers

A `Reader` makes a value of a node, or says what is wrong with it.  Nodes are read in the order of
the document, and the first fault met is the one that counts: a reader refuses a node of the wrong
kind before it looks inside, and finds out that a container is cut off when it gets there.

* `boolean`, `text`, `real`, `whole`, `list`, `map`, `optional` — the readers of plain values;
* `json` — any document;
* `skip` — a value nobody asks for;
* `name` — one of a fixed set of names.
-/

set_option autoImplicit false

namespace Stylus

/-- Where a node comes from. -/
inductive Origin where
  /-- a text that is being read -/
  | running
  /-- a document that was first read as a whole -/
  | held
  /-- a settings file -/
  | settings
deriving DecidableEq, Repr

/-- A way to make a value of a node. -/
def Reader (α : Type) := Origin → Node → Except Fault α

namespace Reader

variable {α β : Type}

/-- A fault without a place. -/
def fault (cause : Cause) : Except Fault α :=
  .error ⟨cause, []⟩

/-- A node of the wrong kind. -/
def mismatch (expected : String) (node : Node) : Except Fault α :=
  match Found.ofNode node with
  | some found => fault (.invalidType found expected)
  | none => fault .malformed

/-- Reads a value, then makes another of it. -/
def bind (r : Reader α) (f : α → Except Fault β) : Reader β := fun origin node => do
  f (← r origin node)

/-- A container must come to its end. -/
def finished (closed : Bool) (a : α) : Except Fault α :=
  if closed then .ok a else fault .malformed

/-! ## Plain values -/

/-- A truth value. -/
def boolean : Reader Bool := fun _ node =>
  match node with
  | .boolean b => .ok b
  | node => mismatch "a boolean" node

/-- A text; `expected` says what it is for. -/
def textAs (expected : String) : Reader String := fun _ node =>
  match node with
  | .text s => .ok s
  | node => mismatch expected node

/-- A text. -/
def text : Reader String :=
  textAs "a string"

/-- A number; a whole one will do. -/
def real : Reader Float := fun _ node =>
  match node with
  | .real x => .ok x
  | .integer n => .ok (Float.ofInt n)
  | node => mismatch "f64" node

/-- A whole number below `bound`; `expected` names the range. -/
def whole (expected : String) (bound : Nat) : Reader Nat := fun _ node =>
  match node with
  | .integer n =>
    if 0 ≤ n ∧ n < bound then .ok n.toNat else fault (.invalidValue (.integer n) expected)
  | node => mismatch expected node

/-- A whole number of 8 bits. -/
def whole8 : Reader UInt8 :=
  bind (whole "u8" UInt8.size) fun n => .ok n.toUInt8

/-- A whole number of 32 bits. -/
def whole32 : Reader UInt32 :=
  bind (whole "u32" UInt32.size) fun n => .ok n.toUInt32

/-- A value that may be missing. -/
def optional (r : Reader α) : Reader (Option α) := fun origin node =>
  match node with
  | .null => .ok none
  | node => (r origin node).map some

/-- A value that passes a test of its own. -/
def refine (r : Reader α) (f : α → Except String β) : Reader β :=
  bind r fun a =>
    match f a with
    | .ok b => .ok b
    | .error reason => fault (.refused reason)

/-! ## Containers -/

/-- A list of values of one kind. -/
def list (r : Reader α) : Reader (List α) := fun origin node =>
  match node with
  | .list items closed => do finished closed (← items.mapM (r origin))
  | node => mismatch "a sequence" node

/-- One member of a map. -/
def mapMember (r : Reader α) (origin : Origin) : Option String × Node → Except Fault (String × α)
  | (none, _) => fault .malformed
  | (some name, node) =>
    match r origin node with
    | .ok a => .ok (name, a)
    | .error f => .error (f.under name)

/-- Values of one kind by name; of two members of one name the later one counts. -/
def map (r : Reader α) : Reader (Index α) := fun origin node =>
  match node with
  | .table members closed => do
    finished closed (Index.ofList (← members.mapM (mapMember r origin)))
  | node => mismatch "a map" node

/-! ## Values that are not looked at -/

/-- A value nobody asks for.  A running text must get past it. -/
def skip : Reader Unit := fun origin node =>
  if origin = .running ∧ !node.isPassable then fault .malformed else .ok ()

/-- How deeply a value may be nested that is held in memory and is not the whole document. -/
def heldDepth : Nat := 126

/-- Holds a value in memory as it is. -/
def hold : Reader Node := fun _ node =>
  if node.isSound heldDepth then .ok node else fault .malformed

/-! ## Any document -/

mutual

/-- The document that a sound node is. -/
def jsonOf : Node → Json
  | .null | .unreadable | .broken => .null
  | .boolean b => .boolean b
  | .integer n => .integer n
  | .real x => .real x
  | .text s => .text s
  | .list items _ => .list (jsonsOf items)
  | .table members _ => .table (jsonMembersOf .empty members).entries

/-- The documents that sound nodes are. -/
def jsonsOf : List Node → List Json
  | [] => []
  | node :: rest => jsonOf node :: jsonsOf rest

/-- The members of a table by name, added to those in front of them. -/
def jsonMembersOf (before : Index Json) : List (Option String × Node) → Index Json
  | [] => before
  | (name, node) :: rest => jsonMembersOf (before.insert (name.getD "") (jsonOf node)) rest

end

/-- Any document; the members of its tables are sorted by name. -/
def json : Reader Json :=
  bind hold fun node => .ok (jsonOf node)

/-! ## Names -/

/-- The value that goes by a name. -/
def named? (known : List (String × α)) (name : String) : Option α :=
  (known.find? (·.1 = name)).map (·.2)

/-- The value that goes by a name, or a fault that lists all names. -/
def pick (known : List (String × α)) (name : String) : Except Fault α :=
  match named? known name with
  | some a => .ok a
  | none => fault (.unknownVariant name (known.map (·.1)))

/-- A place where nothing is to be said. -/
def nothing : Reader Unit := fun _ node =>
  match node with
  | .null => .ok ()
  | .table [] true => .ok ()
  | node => mismatch "unit" node

/-- One of a fixed set of names, in a document held in memory.  A table with that name as its only
member, and nothing under it, will do too. -/
def name (known : List (String × α)) : Reader α := fun origin node =>
  match node with
  | .text s => pick known s
  | .table [(some s, inner)] true => do
    let a ← pick known s
    nothing origin inner
    return a
  | .table _ _ => fault (.invalidValue .map "map with a single key")
  | node => mismatch "string or map" node

/-! ## Whole texts -/

/-- Reads a document, nothing but white space following. -/
def ofDocument (r : Reader α) (d : Document) : Except Fault α := do
  finished d.clean (← r .running d.root)

/-- Reads a text. -/
def ofText (r : Reader α) (s : String) : Except Fault α :=
  r.ofDocument (Document.ofText s)

end Reader

end Stylus
