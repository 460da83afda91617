import Stylus.Document.Lexeme
import Stylus.Toml.Phrase

/-!
# Numbers

Whole numbers of 64 bits with a sign, in four bases, and real numbers, among them the infinite ones
and the one that is none.  An underscore may stand between two digits.
-/

set_option autoImplicit false

namespace Stylus
namespace Toml

open Phrase

/-- Digits, with single underscores between them. -/
def digits (isDigit : Char → Bool) : Phrase (List Char) := do
  let first ← satisfy isDigit
  let rest ← many do
    let _ ← optional (char '_')
    satisfy isDigit
  return first :: rest

/-- The number that digits of a base give. -/
def number (base : Nat) (ds : List Char) : Nat :=
  ds.foldl (fun n d => n * base + (Lexeme.hexValue? d).getD 0) 0

/-- A sign: whether it is a minus. -/
def sign : Phrase Bool :=
  (do
    char '-'
    return true)
  <|> (do
    char '+'
    return false)
  <|> pure false

/-- The digits in front of the point.  Only zero itself may begin with a zero. -/
def wholeDigits : Phrase (List Char) := do
  let ds ← digits Char.isDigit
  guard (ds.length = 1 || ds.head? ≠ some '0')
  return ds

/-- A whole number, if it fits 64 bits with a sign. -/
def whole (negative : Bool) (n : Nat) : Phrase Node :=
  if negative then do
    guard (n ≤ UInt64.size / 2)
    return .integer (-n)
  else do
    guard (n < UInt64.size / 2)
    return .integer n

/-- A whole number in a base that is a power of two, which a letter after the zero tells. -/
def based (letter : Char) (base : Nat) (isDigit : Char → Bool) : Phrase Node := do
  word ['0', letter]
  let ds ← digits isDigit
  whole false (number base ds)

/-- A whole number. -/
def integer : Phrase Node :=
  based 'x' 16 (fun c => (Lexeme.hexValue? c).isSome)
  <|> based 'o' 8 (fun c => '0' ≤ c && c ≤ '7')
  <|> based 'b' 2 (fun c => c = '0' || c = '1')
  <|> (do
    let negative ← sign
    let ds ← wholeDigits
    whole negative (number 10 ds))

/-- The places after the point. -/
def places : Phrase (List Char) := do
  char '.'
  digits Char.isDigit

/-- The exponent. -/
def exponent : Phrase Int := do
  let _ ← satisfy fun c => c = 'e' || c = 'E'
  let negative ← sign
  let ds ← digits Char.isDigit
  return if negative then -(number 10 ds) else number 10 ds

/-- A real number with digits: it has places or an exponent, or both.  One that is too great is
refused, one that is too small to be told from negative infinity is not. -/
def decimal : Phrase Node := do
  let negative ← sign
  let front ← wholeDigits
  let back ← optional places
  let power ← optional exponent
  guard (back.isSome || power.isSome)
  let back := back.getD []
  let x := Number.exact negative (number 10 (front ++ back)) (power.getD 0 - back.length)
  guard (negative || Number.isFinite x)
  return .real x

/-- A real number spelt by a word. -/
def named : Phrase Node := do
  let negative ← sign
  (do
    word ['i', 'n', 'f']
    return .real (if negative then -(1.0 / 0.0) else 1.0 / 0.0))
  <|> (do
    word ['n', 'a', 'n']
    return .real (0.0 / 0.0))

end Toml
end Stylus
