import Stylus.Document.Lexeme
import Stylus.Toml.Phrase

/-!
# Texts in quotes

There are four forms of text in settings.  A text between quotes may hold escapes, one between
apostrophes is taken as it is; with a single mark on either side a text stays on its line, with
three it may go over many.  A line end in a text is a newline, and one right after the opening marks
does not count.
-/

set_option autoImplicit false

namespace Stylus
namespace Toml

open Phrase

/-- A hexadecimal digit. -/
def hexDigit : Phrase Nat := fun
  | c :: rest => (Lexeme.hexValue? c).map (·, rest)
  | [] => none

/-- The number that `count` hexadecimal digits give. -/
def hexNumber : Nat → Nat → Phrase Nat
  | 0, n => pure n
  | count + 1, n => do
    let d ← hexDigit
    hexNumber count (n * 16 + d)

/-- The character of a code, which must not be half of a surrogate pair. -/
def character (code : Nat) : Phrase Char := do
  guard code.isValidChar
  return Char.ofNat code

/-- The character that a one-letter escape stands for. -/
def escape? (c : Char) : Option Char :=
  if c = '/' then none else Lexeme.escape? c

/-- A character given by an escape. -/
def escaped : Phrase Char := do
  char '\\'
  let c ← satisfy fun _ => true
  match c with
  | 'u' => do
    let code ← hexNumber 4 0
    character code
  | 'U' => do
    let code ← hexNumber 8 0
    character code
  | c => StateT.lift (escape? c)

/-- A character as it is. -/
def unescaped (mark : Char) : Phrase Char :=
  satisfy fun c => isPlain c && c ≠ mark && (mark ≠ '"' || c ≠ '\\')

/-- A character of a text between marks. -/
def letter (mark : Char) : Phrase Char :=
  if mark = '"' then unescaped mark <|> escaped else unescaped mark

/-- A text on a single line. -/
def lineText (mark : Char) : Phrase (List Char) := do
  char mark
  let text ← many (letter mark)
  char mark
  return text

/-- A line end that is escaped: it does not count, nor do blanks and line ends after it. -/
def fold : Phrase (List Char) := do
  char '\\'
  blanks
  newline
  let _ ← many ((do let _ ← satisfy isBlank) <|> newline)
  return []

/-- A mark within a text between three of them. -/
def innerMark (mark : Char) : Phrase (List Char) := fun cs =>
  if [mark, mark, mark].isPrefixOf cs then none else (char mark cs).map fun r => ([mark], r.2)

/-- A piece of a text that may go over many lines. -/
def piece (mark : Char) : Phrase (List Char) :=
  (do
    let c ← letter mark
    return [c])
  <|> (do
    newline
    return ['\n'])
  <|> innerMark mark
  <|> (if mark = '"' then fold else failure)

/-- A text that may go over many lines.  Up to two marks may stand right before the closing ones. -/
def linesText (mark : Char) : Phrase (List Char) := do
  word [mark, mark, mark]
  let _ ← optional newline
  let pieces ← many (piece mark)
  word [mark, mark, mark]
  let trailing ← upTo (satisfy (· = mark)) 2
  return pieces.flatten ++ trailing

/-- A text in any of the four forms. -/
def quotedText : Phrase String := do
  let text ← linesText '"' <|> lineText '"' <|> linesText '\'' <|> lineText '\''
  return String.ofList text

end Toml
end Stylus
