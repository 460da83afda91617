import Stylus.Path

/-!
# Addresses

The server listens on an address of one of the two kinds of the Internet.

* `Address.ofText?` — reads an address;
* `Address.text` — its usual form.
-/

set_option autoImplicit false

namespace Stylus

/-- An address of the Internet. -/
inductive Address where
  /-- four numbers of 8 bits -/
  | v4 (numbers : List UInt8)
  /-- eight groups of 16 bits -/
  | v6 (groups : List UInt16)
deriving DecidableEq, Repr

namespace Address

/-- This machine. -/
def loopback : Address :=
  v4 [127, 0, 0, 1]

/-! ## Reading -/

/-- A number of an address of the first kind: up to three digits, and no zero in front. -/
def number? (cs : List Char) : Option UInt8 :=
  let n := cs.foldl (fun n c => n * 10 + (c.toNat - 48)) 0
  if cs.isEmpty || 3 < cs.length || !cs.all Char.isDigit then none
  else if 1 < cs.length && cs.head? = some '0' then none
  else if n < 256 then some n.toUInt8
  else none

/-- The four numbers of an address of the first kind. -/
def numbers? (cs : List Char) : Option (List UInt8) := do
  let numbers ← (Path.parts '.' cs).mapM number?
  guard (numbers.length = 4)
  return numbers

/-- The value of a hexadecimal digit. -/
def hexValue? (c : Char) : Option Nat :=
  if c.isDigit then some (c.toNat - 48)
  else if 'a' ≤ c.toLower ∧ c.toLower ≤ 'f' then some (c.toLower.toNat - 87)
  else none

/-- A group of an address of the second kind: up to four hexadecimal digits. -/
def group? (cs : List Char) : Option UInt16 := do
  let digits ← cs.mapM hexValue?
  guard (!digits.isEmpty && digits.length ≤ 4)
  return (digits.foldl (fun n d => n * 16 + d) 0).toUInt16

/-- Two numbers make a group. -/
def paired : List UInt8 → List UInt16
  | a :: b :: rest => (a.toUInt16 * 256 + b.toUInt16) :: paired rest
  | _ => []

/-- Groups divided by colons.  The last two can be given as an address of the first kind. -/
def groups? : List (List Char) → Option (List UInt16)
  | [] => some []
  | [last] =>
    match numbers? last with
    | some numbers => some (paired numbers)
    | none => (group? last).map fun g => [g]
  | first :: rest => do
    let g ← group? first
    let others ← groups? rest
    return g :: others

/-- The groups of a text, which may be empty. -/
def groupsOf? (cs : List Char) : Option (List UInt16) :=
  if cs.isEmpty then some [] else groups? (Path.parts ':' cs)

/-- Cuts at the first two colons in a row. -/
def cutGap : List Char → Option (List Char × List Char)
  | ':' :: ':' :: rest => some ([], rest)
  | c :: rest => (cutGap rest).map fun (front, back) => (c :: front, back)
  | [] => none

/-- The eight groups of an address of the second kind.  Two colons stand for as many zeros as are
missing, at least one. -/
def eightGroups? (cs : List Char) : Option (List UInt16) :=
  match cutGap cs with
  | none => do
    let groups ← groupsOf? cs
    guard (groups.length = 8)
    return groups
  | some (front, back) => do
    guard (!front.contains '.')
    let front ← groupsOf? front
    let back ← groupsOf? back
    guard (front.length + back.length < 8)
    return front ++ List.replicate (8 - front.length - back.length) 0 ++ back

/-- The address that a text gives. -/
def ofText? (s : String) : Option Address :=
  match numbers? s.toList with
  | some numbers => some (v4 numbers)
  | none => (eightGroups? s.toList).map v6

/-! ## The usual form -/

/-- The form of four numbers. -/
def numbersText (numbers : List UInt8) : String :=
  ".".intercalate (numbers.map fun n => toString n.toNat)

/-- The form of groups. -/
def groupsText (groups : List UInt16) : String :=
  ":".intercalate (groups.map fun g => String.ofList (Nat.toDigits 16 g.toNat))

/-- How many zeros there are in front. -/
def leadingZeros (groups : List UInt16) : Nat :=
  (groups.takeWhile (· = 0)).length

/-- Where the longest row of zeros begins, and how long it is; of two the first one. -/
def longestGap (groups : List UInt16) : Nat × Nat :=
  (List.range groups.length).foldl
    (fun longest start =>
      let length := leadingZeros (groups.drop start)
      if longest.2 < length then (start, length) else longest)
    (0, 0)

/-- The usual form of eight groups: a row of zeros is left out. -/
def eightGroupsText (groups : List UInt16) : String :=
  let gap := longestGap groups
  if gap.2 < 2 then groupsText groups
  else groupsText (groups.take gap.1) ++ "::" ++ groupsText (groups.drop (gap.1 + gap.2))

/-- The two numbers of a group. -/
def bytesOf (group : UInt16) : List UInt8 :=
  [(group / 256).toUInt8, group.toUInt8]

/-- The usual form of an address.  One of the second kind that stands for one of the first shows
it. -/
def text : Address → String
  | v4 numbers => numbersText numbers
  | v6 [0, 0, 0, 0, 0, 0xffff, a, b] => "::ffff:" ++ numbersText (bytesOf a ++ bytesOf b)
  | v6 groups => eightGroupsText groups

end Address

end Stylus
