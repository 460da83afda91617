/-!
# Text in bytes

Bytes from a client or from the plotter are text in UTF-8, as far as they go.  `pieces` cuts a byte
list into characters and faults, a fault being the longest start of a character that is not one.

* `strict` — all characters, or the place of the first fault;
* `lossy` — every fault replaced by `U+FFFD`;
* `encode` — the bytes of a text.
-/

set_option autoImplicit false

namespace Stylus
namespace Text
namespace Utf8

/-- A part of a byte list. -/
inductive Piece where
  | char (c : Char)
  /-- this many bytes that cannot start or continue a character -/
  | invalid (length : Nat)
  /-- this many bytes at the very end that a longer list could have completed -/
  | incomplete (length : Nat)
deriving DecidableEq, Repr

/-- A byte `10xxxxxx`. -/
def isContinuation (b : UInt8) : Bool :=
  b.toNat / 64 == 2

/-- The second bytes that may follow the lead byte of a three-byte character: those that make it
neither overlong nor a surrogate. -/
def secondOfThree (lead second : UInt8) : Bool :=
  if lead = 0xE0 then 0xA0 ≤ second && second ≤ 0xBF
  else if lead = 0xED then 0x80 ≤ second && second ≤ 0x9F
  else isContinuation second

/-- The second bytes that may follow the lead byte of a four-byte character: those that make it
neither overlong nor greater than `U+10FFFF`. -/
def secondOfFour (lead second : UInt8) : Bool :=
  if lead = 0xF0 then 0x90 ≤ second && second ≤ 0xBF
  else if lead = 0xF4 then 0x80 ≤ second && second ≤ 0x8F
  else isContinuation second

/-- The payload bits of a continuation byte. -/
def payload (b : UInt8) : Nat :=
  b.toNat % 64

/-- The two-byte character led by `lead`. -/
def two (lead : UInt8) : List UInt8 → Piece × List UInt8
  | [] => (.incomplete 1, [])
  | b :: rest =>
    if isContinuation b then (.char (Char.ofNat (lead.toNat % 32 * 64 + payload b)), rest)
    else (.invalid 1, b :: rest)

/-- The three-byte character led by `lead`. -/
def three (lead : UInt8) : List UInt8 → Piece × List UInt8
  | [] => (.incomplete 1, [])
  | b :: rest =>
    if secondOfThree lead b then
      match rest with
      | [] => (.incomplete 2, [])
      | c :: rest =>
        if isContinuation c then
          (.char (Char.ofNat ((lead.toNat % 16 * 64 + payload b) * 64 + payload c)), rest)
        else (.invalid 2, c :: rest)
    else (.invalid 1, b :: rest)

/-- The four-byte character led by `lead`. -/
def four (lead : UInt8) : List UInt8 → Piece × List UInt8
  | [] => (.incomplete 1, [])
  | b :: rest =>
    if secondOfFour lead b then
      match rest with
      | [] => (.incomplete 2, [])
      | c :: rest =>
        if isContinuation c then
          match rest with
          | [] => (.incomplete 3, [])
          | d :: rest =>
            if isContinuation d then
              let high := (lead.toNat % 8 * 64 + payload b) * 64 + payload c
              (.char (Char.ofNat (high * 64 + payload d)), rest)
            else (.invalid 3, d :: rest)
        else (.invalid 2, c :: rest)
    else (.invalid 1, b :: rest)

/-- The first piece of `lead :: rest`, and what follows it. -/
def next (lead : UInt8) (rest : List UInt8) : Piece × List UInt8 :=
  if lead < 0x80 then (.char (Char.ofNat lead.toNat), rest)
  else if 0xC2 ≤ lead && lead ≤ 0xDF then two lead rest
  else if 0xE0 ≤ lead && lead ≤ 0xEF then three lead rest
  else if 0xF0 ≤ lead && lead ≤ 0xF4 then four lead rest
  else (.invalid 1, rest)

theorem next_length_le (lead : UInt8) (rest : List UInt8) :
    (next lead rest).2.length ≤ rest.length := by
  unfold next two three four
  grind

/-- The pieces of a byte list, in order. -/
def pieces : List UInt8 → List Piece
  | [] => []
  | lead :: rest => (next lead rest).1 :: pieces (next lead rest).2
termination_by bytes => bytes.length
decreasing_by
  have := next_length_le lead rest
  simp; omega

/-- Where bytes stop being text: the number of bytes before the fault, and how many bytes form it;
`none` for a character that the end of the bytes cuts off. -/
structure Fault where
  index : Nat
  length : Option Nat
deriving DecidableEq, Repr

/-- The characters of the pieces from byte `index` on, unless one of them is a fault. -/
def collect (index : Nat) : List Piece → Except Fault (List Char)
  | [] => .ok []
  | .char c :: rest => (collect (index + c.utf8Size) rest).map (c :: ·)
  | .invalid length :: _ => .error ⟨index, some length⟩
  | .incomplete _ :: _ => .error ⟨index, none⟩

/-- The text of the bytes, or their first fault. -/
def strict (bytes : List UInt8) : Except Fault String :=
  (collect 0 (pieces bytes)).map String.ofList

/-- The character shown for a piece. -/
def Piece.shown : Piece → Char
  | .char c => c
  | _ => '\uFFFD'

/-- The text of the bytes, each fault shown as `U+FFFD`. -/
def lossy (bytes : List UInt8) : String :=
  String.ofList ((pieces bytes).map Piece.shown)

/-- The bytes of a text. -/
def encode (s : String) : List UInt8 :=
  s.toUTF8.toList

/-- The wording of a fault. -/
def Fault.message (f : Fault) : String :=
  match f.length with
  | some n => s!"invalid utf-8 sequence of {n} bytes from index {f.index}"
  | none => s!"incomplete utf-8 byte sequence from index {f.index}"

end Utf8
end Text
end Stylus
