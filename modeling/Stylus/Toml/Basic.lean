import Stylus.Toml.Value

/-!
# Settings as a whole

A text of settings is a sequence of lines, each a header, a value under a key, or nothing.
`Toml.ofText?` is the table that the text stands for, if it makes sense; settings, unlike documents,
are read as a whole before anything in them counts.
-/

set_option autoImplicit false

namespace Stylus
namespace Toml

open Phrase

/-- A line that says something. -/
inductive Line where
  | header (h : Header)
  | entry (e : Key × Node)

/-- A header. -/
def header : Phrase Header :=
  (do
    word ['[', '[']
    let k ← key
    word [']', ']']
    return .row k)
  <|> (do
    char '['
    let k ← key
    char ']'
    return .table k)

/-- The content of a line, if there is any. -/
def content : Phrase (Option Line) :=
  optional
    ((do
      let h ← header
      return Line.header h)
    <|> (do
      let e ← entry (value nesting)
      return Line.entry e))

/-- A line. -/
def line : Phrase (Option Line) := fun cs =>
  if cs.isEmpty then none
  else
    (do
      blanks
      let said ← content
      lineEnd
      return said).run cs

/-- All lines. -/
def lines : Phrase (List Line) := do
  let _ ← optional (char '\ufeff')
  let said ← many line
  atEnd
  return said.filterMap id

/-- The values in front of all headers, and the sections. -/
def sections : List Line → List (Key × Node) × List Section
  | [] => ([], [])
  | .entry e :: rest => (e :: (sections rest).1, (sections rest).2)
  | .header h :: rest => ([], ⟨h, (sections rest).1⟩ :: (sections rest).2)

/-- The table that lines stand for. -/
def tableOf? (ls : List Line) : Option Node := do
  let top ← (sections ls).1.foldlM assign []
  let members ← (sections ls).2.foldlM Section.place top
  return (Tree.table .headed members).node

/-- The table that a text stands for. -/
def ofText? (s : String) : Option Node := do
  let (ls, _) ← lines.run s.toList
  tableOf? ls

end Toml
end Stylus
