import Stylus.Number.Form

/-!
# Documents as written

`Json` is a document that this library writes: a reply, a stored layout, a report.  `Json.compact`
writes it on one line without blanks, `Json.pretty` with one item a line and two blanks per level.

Characters that a line may not hold (`U+0000` to `U+001F`, the quote and the backslash) are written
as escapes, so the text of any document is a single line in its compact form.
-/

set_option autoImplicit false

namespace Stylus

/-- A document; the members of a table are in the order in which they are written. -/
inductive Json where
  | null
  | boolean (b : Bool)
  | integer (n : Int)
  | real (x : Float)
  | text (s : String)
  | list (items : List Json)
  | table (members : List (String × Json))

namespace Json

/-! ## Text -/

/-- A digit of a hexadecimal escape. -/
def hexDigit (n : Nat) : Char :=
  if n < 10 then Char.ofNat (48 + n) else Char.ofNat (87 + n)

/-- A character inside quotes. -/
def escaped (c : Char) : List Char :=
  if c = '"' then ['\\', '"']
  else if c = '\\' then ['\\', '\\']
  else if c.toNat = 8 then ['\\', 'b']
  else if c.toNat = 9 then ['\\', 't']
  else if c.toNat = 10 then ['\\', 'n']
  else if c.toNat = 12 then ['\\', 'f']
  else if c.toNat = 13 then ['\\', 'r']
  else if c.toNat < 32 then
    ['\\', 'u', '0', '0', hexDigit (c.toNat / 16), hexDigit (c.toNat % 16)]
  else [c]

/-- A text in quotes. -/
def quoted (s : String) : List Char :=
  '"' :: (s.toList.flatMap escaped ++ ['"'])

/-! ## Leaves -/

/-- A whole number. -/
def integerText (n : Int) : List Char :=
  if n < 0 then '-' :: Nat.toDigits 10 n.natAbs else Nat.toDigits 10 n.natAbs

/-- A number; there is no text for one that is infinite or undefined, and `null` stands for it. -/
def realText (x : Float) : List Char :=
  if Number.isFinite x then (Number.Form.document.render x).toList else ['n', 'u', 'l', 'l']

/-- The text of a value that holds no others. -/
def leafText : Json → List Char
  | null => ['n', 'u', 'l', 'l']
  | boolean true => ['t', 'r', 'u', 'e']
  | boolean false => ['f', 'a', 'l', 's', 'e']
  | integer n => integerText n
  | real x => realText x
  | text s => quoted s
  | list _ | table _ => []

/-! ## Compact form -/

mutual

/-- The characters of the compact form. -/
def chars : Json → List Char
  | list [] => ['[', ']']
  | list (item :: rest) => '[' :: (chars item ++ itemChars rest)
  | table [] => ['{', '}']
  | table ((name, item) :: rest) => '{' :: (quoted name ++ ':' :: (chars item ++ memberChars rest))
  | leaf => leafText leaf

/-- The items after the first, and the closing bracket. -/
def itemChars : List Json → List Char
  | [] => [']']
  | item :: rest => ',' :: (chars item ++ itemChars rest)

/-- The members after the first, and the closing brace. -/
def memberChars : List (String × Json) → List Char
  | [] => ['}']
  | (name, item) :: rest => ',' :: (quoted name ++ ':' :: (chars item ++ memberChars rest))

end

/-- The document on one line. -/
def compact (v : Json) : String :=
  String.ofList (chars v)

/-! ## Pretty form -/

/-- A new line at a level of nesting. -/
def newLine (level : Nat) : List Char :=
  '\n' :: List.replicate (2 * level) ' '

mutual

/-- The characters of the pretty form, inside `level` levels of nesting. -/
def prettyChars (level : Nat) : Json → List Char
  | list [] => ['[', ']']
  | list (item :: rest) =>
    '[' :: (newLine (level + 1) ++ prettyChars (level + 1) item ++ prettyItems level rest)
  | table [] => ['{', '}']
  | table ((name, item) :: rest) =>
    '{' :: (newLine (level + 1) ++ quoted name ++ [':', ' '] ++ prettyChars (level + 1) item
      ++ prettyMembers level rest)
  | leaf => leafText leaf

/-- The items after the first, and the closing bracket. -/
def prettyItems (level : Nat) : List Json → List Char
  | [] => newLine level ++ [']']
  | item :: rest =>
    ',' :: (newLine (level + 1) ++ prettyChars (level + 1) item ++ prettyItems level rest)

/-- The members after the first, and the closing brace. -/
def prettyMembers (level : Nat) : List (String × Json) → List Char
  | [] => newLine level ++ ['}']
  | (name, item) :: rest =>
    ',' :: (newLine (level + 1) ++ quoted name ++ [':', ' '] ++ prettyChars (level + 1) item
      ++ prettyMembers level rest)

end

/-- The document with one item a line. -/
def pretty (v : Json) : String :=
  String.ofList (prettyChars 0 v)

end Json

/-- A text that may be missing, as a document. -/
def Json.optionalText : Option String → Json
  | some s => .text s
  | none => .null

/-- A number that may be missing, as a document. -/
def Json.optionalReal : Option Float → Json
  | some x => .real x
  | none => .null

end Stylus
