/-!
# Phrases of settings

Settings are written in TOML, a format of lines.  A `Phrase` is a piece of its grammar: it reads
what a text begins with, or fails and leaves the text alone.  Phrases are put together with `do` and
with `<|>`, which takes the first of two that does not fail.

* `satisfy`, `char`, `word` — single characters and fixed words;
* `many` — as many of a phrase as there are;
* `blanks`, `lineEnd`, `space` — what may stand between phrases.
-/

set_option autoImplicit false

namespace Stylus
namespace Toml

/-- A way to read what a text begins with; what follows is left over. -/
abbrev Phrase := StateT (List Char) Option

namespace Phrase

variable {α : Type}

/-! ## Characters -/

/-- A character that passes a test. -/
def satisfy (p : Char → Bool) : Phrase Char := fun
  | c :: rest => if p c then some (c, rest) else none
  | [] => none

/-- This character. -/
def char (c : Char) : Phrase Unit := do
  let _ ← satisfy (· = c)

/-- These characters. -/
def word : List Char → Phrase Unit
  | [] => pure ()
  | c :: rest => do
    char c
    word rest

/-- All characters up to the first one that fails a test. -/
def span (p : Char → Bool) : Phrase (List Char) := fun cs =>
  some (cs.takeWhile p, cs.dropWhile p)

/-- Nothing follows. -/
def atEnd : Phrase Unit := fun cs =>
  if cs.isEmpty then some ((), []) else none

/-! ## Repetition -/

/-- As many of a phrase as there are, but at most as many as the number says. -/
def upTo (p : Phrase α) : Nat → Phrase (List α)
  | 0 => pure []
  | n + 1 =>
    (do
      let a ← p
      let rest ← upTo p n
      return a :: rest)
    <|> pure []

/-- As many of a phrase as there are.  The phrase must not be empty, so that there are no more of it
than characters. -/
def many (p : Phrase α) : Phrase (List α) := fun cs =>
  upTo p cs.length cs

/-- At least one of a phrase, divided by another. -/
def separated (p : Phrase α) (separator : Phrase Unit) : Phrase (List α) := do
  let first ← p
  let rest ← many do
    separator
    p
  return first :: rest

/-! ## Between phrases -/

/-- A blank within a line. -/
def isBlank (c : Char) : Bool :=
  c = ' ' || c = '\t'

/-- A character that may stand in a comment or between quotes: any but control characters, of which
only the tab may. -/
def isPlain (c : Char) : Bool :=
  c = '\t' || (32 ≤ c.toNat && c.toNat ≠ 127)

/-- Blanks. -/
def blanks : Phrase Unit := do
  let _ ← span isBlank

/-- A comment, up to the end of the line. -/
def comment : Phrase Unit := do
  char '#'
  let _ ← span isPlain

/-- The end of a line. -/
def newline : Phrase Unit :=
  char '\n' <|> word ['\r', '\n']

/-- The rest of a line on which nothing more is said. -/
def lineEnd : Phrase Unit := do
  blanks
  let _ ← optional comment
  newline <|> atEnd

/-- A single thing that may stand between the items of a list. -/
def spacer : Phrase Unit :=
  (do let _ ← satisfy isBlank) <|> newline <|> comment

/-- Blanks, line ends and comments. -/
def space : Phrase Unit := do
  let _ ← many spacer

end Phrase

end Toml
end Stylus
