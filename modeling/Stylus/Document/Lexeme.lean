import Stylus.Document.Node
import Stylus.Number.Reading

/-!
# The words of a document text

A document text is a sequence of lexemes: brackets, braces, commas, colons, texts in quotes and
plain values, with white space between them.  `lexemes` cuts a text into them, up to the first
place where no lexeme begins, which is a lexeme `fault` of its own.

A text in quotes can be well-formed and yet stand for nothing, because it escapes half of a
surrogate pair; likewise a number that is greater than every finite one.
-/

set_option autoImplicit false

namespace Stylus

/-- A word of a document text. -/
inductive Lexeme where
  | openList
  | closeList
  | openTable
  | closeTable
  | comma
  | colon
  /-- a text in quotes; `none` if half of a surrogate pair is escaped in it -/
  | text (content : Option String)
  /-- a value that is neither text nor container -/
  | leaf (node : Node)
  | fault

namespace Lexeme

/-- White space between lexemes. -/
def isSpace (c : Char) : Bool :=
  c = ' ' || c = '\n' || c = '\t' || c = '\r'

/-! ## Texts in quotes -/

/-- A unit of a text in quotes: a character, or a 16-bit code given by an escape. -/
inductive Piece where
  | char (c : Char)
  | code (n : Nat)

/-- The value of a hexadecimal digit. -/
def hexValue? (c : Char) : Option Nat :=
  if '0' ≤ c ∧ c ≤ '9' then some (c.toNat - 48)
  else if 'a' ≤ c ∧ c ≤ 'f' then some (c.toNat - 87)
  else if 'A' ≤ c ∧ c ≤ 'F' then some (c.toNat - 55)
  else none

/-- The code that four hexadecimal digits give. -/
def code? (a b c d : Char) : Option Nat := do
  let a ← hexValue? a
  let b ← hexValue? b
  let c ← hexValue? c
  let d ← hexValue? d
  return ((a * 16 + b) * 16 + c) * 16 + d

/-- The character that a one-letter escape stands for. -/
def escape? (c : Char) : Option Char :=
  if c = '"' || c = '\\' || c = '/' then some c
  else if c = 'b' then some '\x08'
  else if c = 'f' then some '\x0c'
  else if c = 'n' then some '\n'
  else if c = 'r' then some '\r'
  else if c = 't' then some '\t'
  else none

/-- Puts a piece in front of the pieces read after it. -/
def Piece.before (p : Piece) : Option (List Piece × List Char) → Option (List Piece × List Char)
  | none => none
  | some (pieces, rest) => some (p :: pieces, rest)

/-- The pieces up to the closing quote, and what follows it. -/
def pieces : List Char → Option (List Piece × List Char)
  | [] => none
  | '"' :: rest => some ([], rest)
  | '\\' :: 'u' :: a :: b :: c :: d :: rest =>
    match code? a b c d with
    | some n => (Piece.code n).before (pieces rest)
    | none => none
  | '\\' :: c :: rest =>
    match escape? c with
    | some e => (Piece.char e).before (pieces rest)
    | none => none
  | c :: rest => if c.toNat < 32 then none else (Piece.char c).before (pieces rest)

/-- The characters of the pieces, two codes of a surrogate pair making one; `none` if a code of a
pair stands alone. -/
def joined : List Piece → Option (List Char)
  | [] => some []
  | .char c :: rest => (joined rest).map (c :: ·)
  | .code n :: rest =>
    if 0xD800 ≤ n ∧ n < 0xDC00 then
      match rest with
      | .code m :: rest =>
        if 0xDC00 ≤ m ∧ m < 0xE000 then
          (joined rest).map (Char.ofNat (0x10000 + (n - 0xD800) * 0x400 + (m - 0xDC00)) :: ·)
        else none
      | _ => none
    else if 0xDC00 ≤ n ∧ n < 0xE000 then none
    else (joined rest).map (Char.ofNat n :: ·)

/-! ## Numbers -/

/-- A number as written: digits of the whole part, of the places, and of the exponent. -/
structure Numeral where
  negative : Bool
  whole : List Nat
  places : Option (List Nat)
  exponent : Option (Bool × List Nat)

/-- The value of a decimal digit. -/
def digit (c : Char) : Nat :=
  c.toNat - 48

/-- The digits at the front, and what follows them. -/
def digits (cs : List Char) : List Nat × List Char :=
  ((cs.takeWhile Char.isDigit).map digit, cs.dropWhile Char.isDigit)

/-- The places after the whole part: none without a point, but at least one after it. -/
def placesOf : List Char → Option (Option (List Nat) × List Char)
  | '.' :: rest =>
    match digits rest with
    | ([], _) => none
    | (places, rest) => some (some places, rest)
  | cs => some (none, cs)

/-- The sign in front of the digits of an exponent. -/
def exponentSign : List Char → Bool × List Char
  | '+' :: rest => (false, rest)
  | '-' :: rest => (true, rest)
  | cs => (false, cs)

/-- The exponent: none without the letter, but at least one digit after it. -/
def exponentOf : List Char → Option (Option (Bool × List Nat) × List Char)
  | [] => some (none, [])
  | c :: rest =>
    if c = 'e' || c = 'E' then
      match digits (exponentSign rest).2 with
      | ([], _) => none
      | (exponent, after) => some (some ((exponentSign rest).1, exponent), after)
    else some (none, c :: rest)

/-- A number without its sign.  Only the digit zero may begin with a zero. -/
def unsigned (negative : Bool) (cs : List Char) : Option (Numeral × List Char) :=
  match digits cs with
  | ([], _) | (0 :: _ :: _, _) => none
  | (whole, rest) =>
    match placesOf rest with
    | none => none
    | some (places, rest) =>
      match exponentOf rest with
      | none => none
      | some (exponent, rest) => some (⟨negative, whole, places, exponent⟩, rest)

/-- The value of a number.  One without point and exponent is whole if it fits 64 bits, with the
exception of a negative zero. -/
def Numeral.node (n : Numeral) : Node :=
  let value := Number.Scaled.valueOf n.whole
  if n.places.isNone && n.exponent.isNone && !n.negative && value < UInt64.size then .integer value
  else if n.places.isNone && n.exponent.isNone && n.negative && value != 0 &&
      value ≤ UInt64.size / 2 then
    .integer (-value)
  else
    let exponent := n.exponent.getD (false, [])
    match Number.scaled n.negative n.whole (n.places.getD []) exponent.1 exponent.2 with
    | some x => .real x
    | none => .unreadable

/-! ## Lexemes -/

/-- What follows `word`, if the characters begin with it. -/
def after? (word : List Char) (cs : List Char) : Option (List Char) :=
  if word.isPrefixOf cs then some (cs.drop word.length) else none

/-- A value spelt by a word. -/
def named (c : Char) (rest : List Char) : Lexeme × List Char :=
  match c with
  | 'n' =>
    match after? ['u', 'l', 'l'] rest with
    | some rest => (leaf .null, rest)
    | none => (fault, [])
  | 't' =>
    match after? ['r', 'u', 'e'] rest with
    | some rest => (leaf (.boolean true), rest)
    | none => (fault, [])
  | 'f' =>
    match after? ['a', 'l', 's', 'e'] rest with
    | some rest => (leaf (.boolean false), rest)
    | none => (fault, [])
  | _ => (fault, [])

/-- A number that begins with `c`. -/
def numeric (c : Char) (rest : List Char) : Lexeme × List Char :=
  match if c = '-' then unsigned true rest else unsigned false (c :: rest) with
  | some (n, rest) => (leaf n.node, rest)
  | none => (fault, [])

/-- A text in quotes, after the opening one. -/
def textual (rest : List Char) : Lexeme × List Char :=
  match pieces rest with
  | some (content, rest) => (text ((joined content).map String.ofList), rest)
  | none => (fault, [])

/-- The lexeme that begins with `c`, and what follows it. -/
def next (c : Char) (rest : List Char) : Lexeme × List Char :=
  match c with
  | '[' => (openList, rest)
  | ']' => (closeList, rest)
  | '{' => (openTable, rest)
  | '}' => (closeTable, rest)
  | ',' => (comma, rest)
  | ':' => (colon, rest)
  | '"' => textual rest
  | _ => if c = '-' || c.isDigit then numeric c rest else named c rest

/-! ## Every lexeme takes at least one character -/

theorem Piece.before_eq_some {p : Piece} {rest : Option (List Piece × List Char)}
    {q : List Piece × List Char} (h : p.before rest = some q) :
    ∃ r, rest = some r ∧ q.2 = r.2 := by
  cases rest with
  | none => simp [before] at h
  | some r => exact ⟨r, rfl, by simp [before] at h; rw [← h]⟩

theorem pieces_length_le (cs : List Char) :
    ∀ p, pieces cs = some p → p.2.length ≤ cs.length := by
  fun_induction pieces cs with
  | case1 | case4 | case6 | case7 => simp
  | case2 rest => simp
  | case3 a b c d rest n _ ih =>
    intro p h
    obtain ⟨q, hq, e⟩ := Piece.before_eq_some h
    have := ih q hq
    simp only [List.length_cons, e]
    omega
  | case5 c rest _ _ _ ih | case8 c rest _ _ _ _ ih =>
    intro p h
    obtain ⟨q, hq, e⟩ := Piece.before_eq_some h
    have := ih q hq
    simp only [List.length_cons, e]
    omega

theorem digits_length_le (cs : List Char) : (digits cs).2.length ≤ cs.length :=
  (List.dropWhile_sublist _).length_le

theorem digits_length_lt {cs : List Char} (h : (digits cs).1 ≠ []) :
    (digits cs).2.length < cs.length := by
  cases cs with
  | nil => simp [digits] at h
  | cons c rest =>
    by_cases hc : c.isDigit
    · have := (List.dropWhile_sublist (l := rest) Char.isDigit).length_le
      simp [digits, hc]
      omega
    · simp [digits, hc] at h

theorem placesOf_length_le (cs : List Char) :
    ∀ p, placesOf cs = some p → p.2.length ≤ cs.length := by
  unfold placesOf
  split
  · rename_i rest
    have := digits_length_le rest
    split <;> simp_all <;> omega
  · simp

theorem exponentSign_length_le (cs : List Char) : (exponentSign cs).2.length ≤ cs.length := by
  unfold exponentSign
  grind

theorem exponentOf_length_le (cs : List Char) :
    ∀ p, exponentOf cs = some p → p.2.length ≤ cs.length := by
  unfold exponentOf
  split
  · simp
  · rename_i c rest
    have := digits_length_le (exponentSign rest).2
    have := exponentSign_length_le rest
    split
    · split <;> simp_all <;> omega
    · simp

theorem unsigned_length_lt (negative : Bool) (cs : List Char) :
    ∀ p, unsigned negative cs = some p → p.2.length < cs.length := by
  have := @digits_length_lt cs
  have := placesOf_length_le
  have := exponentOf_length_le
  unfold unsigned
  grind

theorem numeric_length_le (c : Char) (rest : List Char) :
    (numeric c rest).2.length ≤ rest.length := by
  have := unsigned_length_lt true rest
  have := unsigned_length_lt false (c :: rest)
  unfold numeric
  grind

theorem named_length_le (c : Char) (rest : List Char) :
    (named c rest).2.length ≤ rest.length := by
  unfold named after?
  grind

theorem textual_length_le (rest : List Char) : (textual rest).2.length ≤ rest.length := by
  have := pieces_length_le rest
  unfold textual
  grind

theorem next_length_le (c : Char) (rest : List Char) : (next c rest).2.length ≤ rest.length := by
  have := numeric_length_le c rest
  have := named_length_le c rest
  have := textual_length_le rest
  unfold next
  grind

/-- The lexemes of a text, up to the first fault: nothing follows a fault. -/
def lexemes : List Char → List Lexeme
  | [] => []
  | c :: rest =>
    if isSpace c then lexemes rest
    else
      match _h : next c rest with
      | (lexeme, after) => lexeme :: lexemes after
termination_by cs => cs.length
decreasing_by
  · simp
  · have := next_length_le c rest
    rw [_h] at this
    simp at this ⊢
    omega

end Lexeme
end Stylus
