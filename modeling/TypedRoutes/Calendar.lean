import TypedRoutes.Number.Shortest

/-!
# Calendar dates and timestamps

Days of the Gregorian calendar in the years 1 to 9999, and moments of a day with an optional offset
from UTC in minutes. `Date.of?` and `Timestamp.of?` refuse what the calendar does not have and say
which part is at fault.
-/

set_option autoImplicit false

namespace TypedRoutes

/-- The part of a date, a time or an offset that is out of range. -/
inductive CalendarFault where
  | year (given : Nat)
  | month
  | day
  | hour
  | minute
  | second
  | offset (minutes : Int)
  deriving DecidableEq, Repr

/-- A day of the calendar. -/
structure Date where
  year : Nat
  month : Nat
  day : Nat
  deriving DecidableEq, Repr

/-- A moment: a day, a time of day, and the distance of its clock from UTC, if known. -/
structure Timestamp where
  date : Date
  hour : Nat
  minute : Nat
  second : Nat
  microsecond : Nat
  offset : Option Int
  deriving DecidableEq, Repr

namespace Calendar

/-- Every fourth year has a leap day, but of the full centuries only every fourth. -/
def isLeap (year : Nat) : Bool := year % 4 = 0 && (year % 100 ≠ 0 || year % 400 = 0)

/-- The number of days of a month. -/
def daysInMonth (year month : Nat) : Nat :=
  if month = 2 then (if isLeap year then 29 else 28)
  else if month = 4 ∨ month = 6 ∨ month = 9 ∨ month = 11 then 30
  else 31

/-- The number of days from the start of the year 1 to the start of a date's day. -/
def dayNumber (d : Date) : Nat :=
  let y := d.year - 1
  let months := (List.range (d.month - 1)).map fun m => daysInMonth d.year (m + 1)
  365 * y + y / 4 - y / 100 + y / 400 + months.foldl (· + ·) 0 + (d.day - 1)

/-- A decimal number filled up with zeros to a width. -/
def padded (width n : Nat) : String :=
  let digits := decimalDigits n
  String.ofList (List.replicate (width - digits.length) '0' ++ digits)

end Calendar

open Calendar

/-- The date with these parts, if the calendar has it. -/
def Date.of? (year month day : Nat) : Except CalendarFault Date :=
  if year < 1 ∨ 9999 < year then .error (.year year)
  else if month < 1 ∨ 12 < month then .error .month
  else if day < 1 ∨ daysInMonth year month < day then .error .day
  else .ok ⟨year, month, day⟩

/-- `2020-01-31`. -/
def Date.text (d : Date) : String :=
  padded 4 d.year ++ "-" ++ padded 2 d.month ++ "-" ++ padded 2 d.day

/-- The parts of a date, separated by commas. -/
def Date.parts (d : Date) : List Nat := [d.year, d.month, d.day]

namespace Timestamp

/-- The offset of a clock stays below one day. -/
def checkOffset (offset : Option Int) : Except CalendarFault Unit :=
  match offset with
  | some minutes => if minutes.natAbs < 24 * 60 then .ok () else .error (.offset minutes)
  | none => .ok ()

/-- The timestamp with these parts, if there is such a moment; the offset is looked at first. -/
def of? (year month day hour minute second microsecond : Nat) (offset : Option Int) :
    Except CalendarFault Timestamp := do
  checkOffset offset
  let date ← Date.of? year month day
  if 23 < hour then throw .hour
  if 59 < minute then throw .minute
  if 59 < second then throw .second
  return ⟨date, hour, minute, second, microsecond, offset⟩

/-- `+05:30`. -/
def offsetText (minutes : Int) : String :=
  (if minutes < 0 then "-" else "+") ++ padded 2 (minutes.natAbs / 60) ++ ":" ++
    padded 2 (minutes.natAbs % 60)

/-- `2020-01-31 10:00:00.500000+05:30`; a zero fraction and an unknown offset are left out. -/
def text (t : Timestamp) : String :=
  t.date.text ++ " " ++ padded 2 t.hour ++ ":" ++ padded 2 t.minute ++ ":" ++ padded 2 t.second ++
    (if t.microsecond = 0 then "" else "." ++ padded 6 t.microsecond) ++
    (t.offset.map offsetText).getD ""

/-- The moment in microseconds on the clock of UTC, or on its own clock if the offset is unknown. -/
def instant (t : Timestamp) : Int :=
  let minutes : Int := (dayNumber t.date * 24 + t.hour) * 60 + t.minute
  (minutes - t.offset.getD 0) * 60000000 + t.second * 1000000 + t.microsecond

/-- Two timestamps are the same moment if they agree on one clock; a known offset is never the
same as an unknown one. -/
def sameMoment (a b : Timestamp) : Bool :=
  a.offset.isSome == b.offset.isSome && a.instant == b.instant

end Timestamp

example : (Date.of? 2023 2 29).toOption = none := by decide
example : Date.text ⟨20, 3, 4⟩ = "0020-03-04" := by decide
example : Timestamp.text ⟨⟨2020, 1, 1⟩, 10, 0, 0, 0, some (-90)⟩ = "2020-01-01 10:00:00-01:30" := by
  decide

end TypedRoutes
