/-!
# Calendar

Dates of the Gregorian calendar, extended to all years from 1 to 9999, and times of a day with or
without a distance from universal time. Two times with a distance are compared as moments of
universal time, two without one by what they read.
-/

namespace GrammarCoverage

/-- A day of the calendar. -/
structure Date where
  year : Nat
  month : Nat
  day : Nat
deriving DecidableEq

namespace Date

/-- Has a year a 29th of February? -/
def isLeap (year : Nat) : Bool := year % 4 = 0 && (year % 100 ≠ 0 || year % 400 = 0)

def daysOfMonth (year month : Nat) : Nat :=
  if month = 2 then if isLeap year then 29 else 28
  else if [4, 6, 9, 11].contains month then 30
  else 31

def isValid (d : Date) : Bool :=
  1 ≤ d.year && 1 ≤ d.month && d.month ≤ 12 && 1 ≤ d.day && d.day ≤ daysOfMonth d.year d.month

/-- The number of days up to a date, from the first of January of year 1. -/
def ordinal (d : Date) : Nat :=
  let past := d.year - 1
  let months := ((List.range d.month).drop 1).map (daysOfMonth d.year)
  365 * past + past / 4 - past / 100 + past / 400 + months.foldl (· + ·) 0 + d.day

def padded (width n : Nat) : String :=
  "".pushn '0' (width - (toString n).length) ++ toString n

/-- A date with its largest unit first. -/
def text (d : Date) : String :=
  padded 4 d.year ++ "-" ++ padded 2 d.month ++ "-" ++ padded 2 d.day

def le (d e : Date) : Bool := d.ordinal ≤ e.ordinal

end Date

/-- A time of a day. -/
structure Moment where
  date : Date
  hour : Nat
  minute : Nat
  second : Nat
  microsecond : Nat
  /-- By how many minutes the time is ahead of universal time, if that is known. -/
  offset? : Option Int
deriving DecidableEq

namespace Moment

/-- Is a time on the clock, on a date of the calendar, and less than a day off universal time? -/
def isValid (m : Moment) : Bool :=
  m.date.isValid && m.hour < 24 && m.minute < 60 && m.second < 60 && m.microsecond < 1000000
    && m.offset?.all fun o => o.natAbs < 1440

/-- The microseconds up to a time as it reads. -/
def reading (m : Moment) : Nat :=
  (((m.date.ordinal * 24 + m.hour) * 60 + m.minute) * 60 + m.second) * 1000000 + m.microsecond

/-- The microseconds up to a time, in universal time if its distance from that is known. -/
def instant (m : Moment) : Int := m.reading - (m.offset?.getD 0) * 60000000

/-- Are times compared by the same clock? -/
def comparable (m n : Moment) : Bool := m.offset?.isSome == n.offset?.isSome

def same (m n : Moment) : Bool := m.comparable n && m.instant == n.instant

/-- A distance from universal time with its sign, in hours and minutes. -/
def offsetText (o : Int) : String :=
  (if o < 0 then "-" else "+") ++ Date.padded 2 (o.natAbs / 60) ++ ":"
    ++ Date.padded 2 (o.natAbs % 60)

/-- A time after its date; fractions of a second are there only if they are not zero. -/
def text (m : Moment) : String :=
  m.date.text ++ " " ++ Date.padded 2 m.hour ++ ":" ++ Date.padded 2 m.minute ++ ":"
    ++ Date.padded 2 m.second
    ++ (if m.microsecond = 0 then "" else "." ++ Date.padded 6 m.microsecond)
    ++ (m.offset?.map offsetText).getD ""

end Moment

end GrammarCoverage
