/-!
# Dates and moments of the calendar

Days of the Gregorian calendar from year 1 to 9999, and moments of a day with an optional offset
from universal time. Two moments with offsets are the same when they are the same instant.
-/

namespace Bindery

/-- A day of the calendar. -/
structure Date where
  year : Nat
  month : Nat
  day : Nat
  deriving DecidableEq, Repr

namespace Date

def isLeap (year : Nat) : Bool :=
  year % 4 == 0 && (year % 100 != 0 || year % 400 == 0)

def daysInMonth (year month : Nat) : Nat :=
  if month = 2 then if isLeap year then 29 else 28
  else if month ∈ [4, 6, 9, 11] then 30
  else 31

/-- Whether the calendar has such a day. -/
def isValid (d : Date) : Bool :=
  1 ≤ d.year && d.year ≤ 9999 && 1 ≤ d.month && d.month ≤ 12 && 1 ≤ d.day &&
    d.day ≤ daysInMonth d.year d.month

/-- The number of a day, counted from the first day of year 1. -/
def ordinal (d : Date) : Nat :=
  let before := d.year - 1
  let months := (List.range (d.month - 1)).map fun m => daysInMonth d.year (m + 1)
  before * 365 + before / 4 - before / 100 + before / 400 + months.foldl (· + ·) 0 + d.day

end Date

/-- A moment of a day; `offset` is what its clock is ahead of universal time, in minutes, if it is
known. -/
structure Moment where
  date : Date
  hour : Nat
  minute : Nat
  second : Nat
  microsecond : Nat
  offset : Option Int
  deriving DecidableEq, Repr

namespace Moment

/-- Whether a clock can show such a moment, at less than a day from universal time. -/
def isValid (m : Moment) : Bool :=
  m.date.isValid && m.hour < 24 && m.minute < 60 && m.second < 60 && m.microsecond < 1000000 &&
    match m.offset with
    | none => true
    | some o => o.natAbs < 24 * 60

/-- Microseconds shown by the clock since the first day of year 1. -/
def clock (m : Moment) : Int :=
  (((m.date.ordinal * 24 + m.hour) * 60 + m.minute) * 60 + m.second) * 1000000 + m.microsecond

/-- Whether two moments are one: with offsets the same instant, without any the same clock, and
never if only one has an offset. -/
def same (a b : Moment) : Bool :=
  match a.offset, b.offset with
  | none, none => a.clock == b.clock
  | some x, some y => a.clock - x * 60000000 == b.clock - y * 60000000
  | _, _ => false

end Moment

/-- The last `width` decimal digits of a number, with zeros in front. -/
def paddedDigits (width n : Nat) : List Char :=
  let digits := Nat.toDigits 10 n
  List.replicate (width - digits.length) '0' ++ digits

/-- A day as `2020-01-31`. -/
def Date.isoText (d : Date) : List Char :=
  paddedDigits 4 d.year ++ '-' :: paddedDigits 2 d.month ++ '-' :: paddedDigits 2 d.day

/-- A moment as `2020-01-31T23:59:00`, with its fraction if there is one and its offset if it is
known. -/
def Moment.isoText (m : Moment) : List Char :=
  let fraction := if m.microsecond = 0 then [] else '.' :: paddedDigits 6 m.microsecond
  let offset :=
    match m.offset with
    | none => []
    | some o =>
      (if o < 0 then '-' else '+') :: paddedDigits 2 (o.natAbs / 60) ++
        ':' :: paddedDigits 2 (o.natAbs % 60)
  m.date.isoText ++ 'T' :: paddedDigits 2 m.hour ++ ':' :: paddedDigits 2 m.minute ++
    ':' :: paddedDigits 2 m.second ++ fraction ++ offset

end Bindery
