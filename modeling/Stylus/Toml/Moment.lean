import Stylus.Toml.Phrase

/-!
# Dates and times

A day, a time of day, or both, and then perhaps the distance from universal time.  Settings have no
use for them, and they are taken as texts of a single form (`Moment.text`).
-/

set_option autoImplicit false

namespace Stylus
namespace Toml

open Phrase

/-- A day of the calendar. -/
structure Day where
  year : Nat
  month : Nat
  day : Nat

/-- A time of day; a minute may have a leap second. -/
structure TimeOfDay where
  hour : Nat
  minute : Nat
  second : Nat
  nanosecond : Nat := 0

/-- A distance from universal time. -/
inductive Offset where
  | zulu
  | minutes (n : Int)

/-- A date, a time, or both. -/
structure Moment where
  day : Option Day := none
  time : Option TimeOfDay := none
  offset : Option Offset := none

/-! ## The form of a moment -/

/-- A number with at least `width` digits. -/
def padded (width n : Nat) : String :=
  let ds := Nat.toDigits 10 n
  String.ofList (List.replicate (width - ds.length) '0' ++ ds)

/-- The form of a day. -/
def Day.text (d : Day) : String :=
  s!"{padded 4 d.year}-{padded 2 d.month}-{padded 2 d.day}"

/-- The places after the seconds, without zeros at the end. -/
def fractionText (nanosecond : Nat) : String :=
  if nanosecond = 0 then ""
  else
    let ds := (padded 9 nanosecond).toList.reverse.dropWhile (· = '0')
    String.ofList ('.' :: ds.reverse)

/-- The form of a time. -/
def TimeOfDay.text (t : TimeOfDay) : String :=
  s!"{padded 2 t.hour}:{padded 2 t.minute}:{padded 2 t.second}{fractionText t.nanosecond}"

/-- The form of an offset. -/
def Offset.text : Offset → String
  | zulu => "Z"
  | minutes n =>
    let mark := if n < 0 then "-" else "+"
    s!"{mark}{padded 2 (n.natAbs / 60)}:{padded 2 (n.natAbs % 60)}"

/-- The form of a moment. -/
def Moment.text (m : Moment) : String :=
  let divider := if m.day.isSome && m.time.isSome then "T" else ""
  (m.day.map Day.text).getD "" ++ divider ++ (m.time.map TimeOfDay.text).getD ""
    ++ (m.offset.map Offset.text).getD ""

/-! ## Reading -/

/-- The digit at the front of a number. -/
def decimalDigit : Phrase Nat := do
  let c ← satisfy Char.isDigit
  return c.toNat - 48

/-- A number of exactly `count` digits. -/
def fixed : Nat → Nat → Phrase Nat
  | 0, n => pure n
  | count + 1, n => do
    let d ← decimalDigit
    fixed count (n * 10 + d)

/-- A number of two digits, between `low` and `high`. -/
def twoDigits (low high : Nat) : Phrase Nat := do
  let n ← fixed 2 0
  guard (low ≤ n && n ≤ high)
  return n

/-- A year has a 29th of February. -/
def isLeapYear (year : Nat) : Bool :=
  year % 4 = 0 && (year % 100 ≠ 0 || year % 400 = 0)

/-- The number of days of a month. -/
def daysIn (year month : Nat) : Nat :=
  if month = 2 then if isLeapYear year then 29 else 28
  else if [4, 6, 9, 11].contains month then 30
  else 31

/-- A day. -/
def day : Phrase Day := do
  let year ← fixed 4 0
  char '-'
  let month ← twoDigits 1 12
  char '-'
  let day ← twoDigits 1 (daysIn year month)
  return ⟨year, month, day⟩

/-- The places after the seconds, of which nine count. -/
def fraction : Phrase Nat := do
  char '.'
  let first ← decimalDigit
  let rest ← many decimalDigit
  let ds := (first :: rest).take 9
  return ds.foldl (fun n d => n * 10 + d) 0 * Nat.pow 10 (9 - ds.length)

/-- A time. -/
def timeOfDay : Phrase TimeOfDay := do
  let hour ← twoDigits 0 23
  char ':'
  let minute ← twoDigits 0 59
  char ':'
  let second ← twoDigits 0 60
  let places ← optional fraction
  return { hour, minute, second, nanosecond := places.getD 0 }

/-- An offset. -/
def offset : Phrase Offset :=
  (do
    let _ ← satisfy fun c => c = 'Z' || c = 'z'
    return .zulu)
  <|> (do
    let mark ← satisfy fun c => c = '+' || c = '-'
    let hour ← twoDigits 0 23
    char ':'
    let minute ← twoDigits 0 59
    let n : Int := (hour * 60 + minute : Nat)
    return .minutes (if mark = '-' then -n else n))

/-- A time after a day. -/
def timeAfterDay : Phrase (TimeOfDay × Option Offset) := do
  let _ ← satisfy fun c => c = 'T' || c = 't' || c = ' '
  let time ← timeOfDay
  let distance ← optional offset
  return (time, distance)

/-- A moment. -/
def moment : Phrase Moment :=
  (do
    let d ← day
    let time ← optional timeAfterDay
    return { day := some d, time := time.map (·.1), offset := time.bind (·.2) })
  <|> (do
    let time ← timeOfDay
    return { time := some time })

end Toml
end Stylus
