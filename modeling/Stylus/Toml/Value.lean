import Stylus.Toml.Moment
import Stylus.Toml.Numeral
import Stylus.Toml.Quoted
import Stylus.Toml.Tree

/-!
# Keys and values

A value is a text, a number, a truth value, a moment, a list or a table between braces.  Lists and
tables are nested at most `nesting` deep, and keys have at most as many parts.
-/

set_option autoImplicit false

namespace Stylus
namespace Toml

open Phrase

/-- How deeply values are nested at most. -/
def nesting : Nat := 79

/-! ## Keys -/

/-- A character of a name without quotes. -/
def isBare (c : Char) : Bool :=
  c.isAlphanum || c = '-' || c = '_'

/-- A name without quotes. -/
def bareName : Phrase String := do
  let first ← satisfy isBare
  let rest ← span isBare
  return String.ofList (first :: rest)

/-- A name in quotes, on a single line. -/
def quotedName : Phrase String := do
  let text ← lineText '"' <|> lineText '\''
  return String.ofList text

/-- A part of a key. -/
def namePart : Phrase String := do
  blanks
  let name ← bareName <|> quotedName
  blanks
  return name

/-- A key, its parts divided by points. -/
def key : Phrase Key := do
  let parts ← separated namePart (char '.')
  guard (parts.length ≤ nesting)
  return ⟨parts.dropLast, parts.getLast?.getD ""⟩

/-! ## Values -/

/-- A truth value. -/
def truth : Phrase Node :=
  (do
    word ['t', 'r', 'u', 'e']
    return .boolean true)
  <|> (do
    word ['f', 'a', 'l', 's', 'e']
    return .boolean false)

/-- A value that holds no others. -/
def simpleValue : Phrase Node :=
  (do
    let s ← quotedText
    return .text s)
  <|> (do
    let m ← moment
    return .text m.text)
  <|> decimal <|> integer <|> named <|> truth

/-- A list of values. -/
def valueList (value : Phrase Node) : Phrase Node := do
  char '['
  let items ← optional (separated (do
    space
    let v ← value
    space
    return v) (char ','))
  let _ ← optional (do
    guard items.isSome
    char ',')
  space
  char ']'
  return .list (items.getD []) true

/-- A value under a key. -/
def entry (value : Phrase Node) : Phrase (Key × Node) := do
  let k ← key
  char '='
  blanks
  let v ← value
  return (k, v)

/-- A table between braces. -/
def valueTable (value : Phrase Node) : Phrase Node := do
  char '\x7b'
  let entries ← optional (separated (do
    let e ← entry value
    blanks
    return e) (char ','))
  blanks
  char '\x7d'
  let members ← StateT.lift ((entries.getD []).foldlM assign [])
  return (Tree.table .headed members).node

/-- A value, in which others are nested at most `depth` deep. -/
def value : Nat → Phrase Node
  | 0 => simpleValue
  | depth + 1 => simpleValue <|> valueList (value depth) <|> valueTable (value depth)

end Toml
end Stylus
