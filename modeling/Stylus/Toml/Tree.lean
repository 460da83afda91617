import Stylus.Document.Node
import Stylus.Index

/-!
# Tables in the making

The table of a whole text is put together from sections and dotted keys, which may reach into tables
that are there already.  Whether they may depends on how a table came to be (`Mark`).

* `assign` — one more value under a dotted key;
* `Section.place` — one more section under its header;
* `Tree.node` — the finished table, its members in the order of their names.
-/

set_option autoImplicit false

namespace Stylus
namespace Toml

/-- How a table came to be. -/
inductive Mark where
  /-- by a header of its own -/
  | headed
  /-- by the header of a table inside it -/
  | implied
  /-- by a dotted key -/
  | dotted
deriving DecidableEq, Repr

/-- What stands under a name. -/
inductive Tree where
  | value (node : Node)
  | table (mark : Mark) (members : List (String × Tree))
  /-- tables with one header, the last one first -/
  | tables (rows : List Tree)

/-- A table in the making. -/
abbrev Members := List (String × Tree)

/-- A key: the names of tables, and the name in the last of them. -/
structure Key where
  path : List String
  name : String

namespace Members

/-- What stands under a name. -/
def find? (members : Members) (name : String) : Option Tree :=
  (List.find? (·.1 = name) members).map (·.2)

/-- Puts something under a name, in place of what was there. -/
def put (members : Members) (name : String) (tree : Tree) : Members :=
  members.filter (·.1 ≠ name) ++ [(name, tree)]

end Members

/-- Changes the table that a path leads to.  Tables that are missing on the way come to be as `mark`
says.  A dotted key leads through no table that has a header; any path leads into the last one of
tables with one header. -/
def alter (mark : Mark) (change : Mark → Members → Option Members) :
    List String → Mark → Members → Option Members
  | [], own, members => change own members
  | name :: path, _, members =>
    match members.find? name with
    | none => do
      let inner ← alter mark change path mark []
      return members.put name (.table mark inner)
    | some (.table own inner) =>
      if mark = .dotted ∧ own = .headed then none
      else do
        let inner ← alter mark change path own inner
        return members.put name (.table own inner)
    | some (.tables (.table own row :: rows)) => do
      let row ← alter mark change path own row
      return members.put name (.tables (.table own row :: rows))
    | some _ => none

/-- Puts a value under a new name in a table.  A dotted key must end in a table that dotted keys
made. -/
def putValue (key : Key) (node : Node) (own : Mark) (members : Members) : Option Members :=
  if decide (own = .dotted) = key.path.isEmpty then none
  else if (members.find? key.name).isSome then none
  else some (members.put key.name (.value node))

/-- One more value under a dotted key. -/
def assign (members : Members) (entry : Key × Node) : Option Members :=
  alter .dotted (putValue entry.1 entry.2) entry.1.path .headed members

/-- The header of a section. -/
inductive Header where
  | table (key : Key)
  /-- one more of the tables with this header -/
  | row (key : Key)

/-- A header and the values under it. -/
structure Section where
  header : Header
  entries : List (Key × Node)

namespace Section

/-- Puts a table under a name: a new one, or one that only had tables inside it so far. -/
def putTable (name : String) (entries : List (Key × Node)) (members : Members) :
    Option Members := do
  let before ←
    match members.find? name with
    | none => some []
    | some (.table .implied inner) => some inner
    | some _ => none
  let inner ← entries.foldlM assign before
  return members.put name (.table .headed inner)

/-- Puts one more table under a name that is new or has such tables only. -/
def putRow (name : String) (entries : List (Key × Node)) (members : Members) :
    Option Members := do
  let rows ←
    match members.find? name with
    | none => some []
    | some (.tables rows) => some rows
    | some _ => none
  let inner ← entries.foldlM assign []
  return members.put name (.tables (.table .headed inner :: rows))

/-- One more section. -/
def place (members : Members) (s : Section) : Option Members :=
  match s.header with
  | .table key => alter .implied (fun _ => putTable key.name s.entries) key.path .headed members
  | .row key => alter .implied (fun _ => putRow key.name s.entries) key.path .headed members

end Section

/-! ## The finished table -/

namespace Tree

mutual

/-- The node that a tree stands for. -/
def node : Tree → Node
  | value n => n
  | table _ members => tableNode .empty members
  | tables rows => .list (rowNodes rows).reverse true

/-- The nodes of tables with one header, the last one first. -/
def rowNodes : List Tree → List Node
  | [] => []
  | row :: rows => node row :: rowNodes rows

/-- The node of a table, whose members come after those in front of them. -/
def tableNode (before : Index Node) : List (String × Tree) → Node
  | [] => .table (before.entries.map fun e => (some e.1, e.2)) true
  | (name, tree) :: rest => tableNode (before.insert name (node tree)) rest

end

end Tree

end Toml
end Stylus
