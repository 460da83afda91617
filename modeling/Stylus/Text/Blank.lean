/-!
# White space

The white space of this library is the Unicode property `White_Space`; it is what surrounds a time
spec, an axis name, a request line or the `ok` of an acknowledgment without counting.

* `isBlank` — the property.
* `trim` — a text without the white space at both ends.
-/

set_option autoImplicit false

namespace Stylus
namespace Text

/-- The Unicode property `White_Space`. -/
def isBlank (c : Char) : Bool :=
  let n := c.toNat
  (9 ≤ n && n ≤ 13) || n == 0x20 || n == 0x85 || n == 0xA0 || n == 0x1680
    || (0x2000 ≤ n && n ≤ 0x200A) || n == 0x2028 || n == 0x2029 || n == 0x202F || n == 0x205F
    || n == 0x3000

/-- Characters without the white space in front. -/
def trimLeading (cs : List Char) : List Char :=
  cs.dropWhile isBlank

/-- Characters without the white space behind. -/
def trimTrailing (cs : List Char) : List Char :=
  (cs.reverse.dropWhile isBlank).reverse

/-- Characters without the white space at both ends. -/
def trimmed (cs : List Char) : List Char :=
  trimTrailing (trimLeading cs)

/-- A text without the white space at both ends. -/
def trim (s : String) : String :=
  String.ofList (trimmed s.toList)

/-- A text without the white space behind. -/
def trimEnd (s : String) : String :=
  String.ofList (trimTrailing s.toList)

/-- ASCII letters in lower case, all else as it is. -/
def lowerAscii (s : String) : String :=
  s.map Char.toLower

/-- ASCII letters in upper case, all else as it is. -/
def upperAscii (s : String) : String :=
  s.map Char.toUpper

end Text
end Stylus
