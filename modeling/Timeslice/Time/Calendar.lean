/-!
# The Gregorian calendar

Dates are counted in days from 1970-01-01, with the Gregorian rules applied to every year.
-/

namespace Timeslice

structure Date where
  year : Int
  month : Nat
  day : Nat

namespace Date

def isLeap (year : Int) : Bool :=
  year % 4 == 0 && (year % 100 != 0 || year % 400 == 0)

def daysInMonth (year : Int) (month : Nat) : Nat :=
  match month with
  | 2 => if isLeap year then 29 else 28
  | 4 | 6 | 9 | 11 => 30
  | _ => 31

def isValid (d : Date) : Bool :=
  1 ≤ d.month && d.month ≤ 12 && 1 ≤ d.day && d.day ≤ daysInMonth d.year d.month

def daysBefore (year : Int) (month : Nat) : Nat :=
  (List.range (month - 1)).foldl (fun days m => days + daysInMonth year (m + 1)) 0

def daysToYear (year : Int) : Int :=
  let y := year - 1
  365 * y + y / 4 - y / 100 + y / 400

def toDays (d : Date) : Int :=
  daysToYear d.year - daysToYear 1970 + daysBefore d.year d.month + (d.day - 1)

def firstYear : Int := -262143
def lastYear : Int := 262142

end Date

/-- An instant as seconds since the Unix epoch and nanoseconds into that second. A leap second is
written as the second before it, with a thousand million nanoseconds or more. -/
structure Moment where
  seconds : Int
  nanos : Nat
  deriving DecidableEq

namespace Moment

/-- Whole milliseconds since the epoch, rounded toward the past. -/
def millis (m : Moment) : Int :=
  m.seconds * 1000 + m.nanos / 1000000

def firstSecond : Int :=
  (Date.mk Date.firstYear 1 1).toDays * 86400

def endSecond : Int :=
  (Date.mk (Date.lastYear + 1) 1 1).toDays * 86400

/-- The instant with these seconds and nanoseconds, if its day is in the calendar. Leap seconds are
allowed at the end of every minute. -/
def of? (seconds : Int) (nanos : Nat) : Option Moment :=
  if firstSecond ≤ seconds ∧ seconds < endSecond ∧
      (nanos < 1000000000 ∨ nanos < 2000000000 ∧ seconds % 60 = 59) then
    some ⟨seconds, nanos⟩
  else none

def ofMillis? (millis : Int) : Option Moment :=
  of? (millis / 1000) ((millis % 1000).toNat * 1000000)

/-- The instant of a date and a time of day in UTC. Second 60 is a leap second. -/
def ofCivil? (date : Date) (hour minute second nanos : Nat) : Option Moment :=
  if date.isValid && Date.firstYear ≤ date.year && date.year ≤ Date.lastYear &&
      hour ≤ 23 && minute ≤ 59 && second ≤ 60 then
    let start := date.toDays * 86400 + hour * 3600 + minute * 60
    if second = 60 then some ⟨start + 59, nanos + 1000000000⟩ else some ⟨start + second, nanos⟩
  else none

end Moment

end Timeslice
