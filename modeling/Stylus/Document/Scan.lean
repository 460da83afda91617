import Stylus.Document.Lexeme

/-!
# Scanning a document

`Document.ofText` builds the tree of a text from its lexemes.  It walks them once, with a stack of
the containers that are open at that point (`Frame`) and a note of what may come next (`Expect`).
`Scan.step` is one move of that walk; where a lexeme does not fit, the containers on the stack are
cut off and the tree ends there.
-/

set_option autoImplicit false

namespace Stylus
namespace Scan

/-- A container that is still open; what it holds so far is in reverse order. -/
inductive Frame where
  | list (items : List Node)
  | table (members : List (Option String × Node))
  /-- a table with a name whose value is still to come -/
  | member (members : List (Option String × Node)) (name : Option String)

/-- What may come next. -/
inductive Expect where
  | value
  | itemOrEnd
  | nameOrEnd
  | name
  | colon
  | separator

namespace Frame

/-- The container with one more value in it. -/
def holding (node : Node) : Frame → Frame
  | list items => list (node :: items)
  | table members => table members
  | member members name => table ((name, node) :: members)

/-- The container as it stands, without its end. -/
def cut : Frame → Node
  | list items => .list items.reverse false
  | table members => .table members.reverse false
  | member members name => .table ((name, .broken) :: members).reverse false

end Frame

/-- What is left of a text when nothing after this point makes sense: every open container is cut
off, each being the last thing in the one around it. -/
def abandon : List Frame → Node
  | [] => .broken
  | frame :: frames => frames.foldl (fun node outer => (outer.holding node).cut) frame.cut

/-- The outcome of one move. -/
inductive Step where
  | more (frames : List Frame) (expect : Expect)
  | done (root : Node)
  | cut (root : Node)

/-- A complete value goes into the innermost open container, or is the whole document. -/
def deliver (node : Node) : List Frame → Step
  | [] => .done node
  | frame :: frames => .more (frame.holding node :: frames) .separator

/-- A lexeme where a value is expected. -/
def value (frames : List Frame) : Lexeme → Step
  | .openList => .more (.list [] :: frames) .itemOrEnd
  | .openTable => .more (.table [] :: frames) .nameOrEnd
  | .text (some s) => deliver (.text s) frames
  | .text none => deliver .unreadable frames
  | .leaf node => deliver node frames
  | _ => .cut (abandon frames)

/-- A lexeme where the name of a member is expected. -/
def name : List Frame → Lexeme → Step
  | .table members :: frames, .text name => .more (.member members name :: frames) .colon
  | frames, _ => .cut (abandon frames)

/-- A lexeme after a value: the container goes on or ends. -/
def separator : List Frame → Lexeme → Step
  | .list items :: frames, .comma => .more (.list items :: frames) .value
  | .table members :: frames, .comma => .more (.table members :: frames) .name
  | .list items :: frames, .closeList => deliver (.list items.reverse true) frames
  | .table members :: frames, .closeTable => deliver (.table members.reverse true) frames
  | frames, _ => .cut (abandon frames)

/-- One move. -/
def step (frames : List Frame) (lexeme : Lexeme) : Expect → Step
  | .value => value frames lexeme
  | .itemOrEnd =>
    match lexeme with
    | .closeList => separator frames .closeList
    | _ => value frames lexeme
  | .nameOrEnd =>
    match lexeme with
    | .closeTable => separator frames .closeTable
    | _ => name frames lexeme
  | .name => name frames lexeme
  | .colon =>
    match lexeme with
    | .colon => .more frames .value
    | _ => .cut (abandon frames)
  | .separator => separator frames lexeme

/-- The walk over the lexemes. -/
def run : List Frame → Expect → List Lexeme → Document
  | frames, _, [] => ⟨abandon frames, false⟩
  | frames, expect, lexeme :: rest =>
    match step frames lexeme expect with
    | .more frames expect => run frames expect rest
    | .done root => ⟨root, rest.isEmpty⟩
    | .cut root => ⟨root, false⟩

end Scan

/-- The document of a text, as far as the text makes sense. -/
def Document.ofText (s : String) : Document :=
  Scan.run [] .value (Lexeme.lexemes s.toList)

end Stylus
