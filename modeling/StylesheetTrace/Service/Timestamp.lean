import StylesheetTrace.Text.Number

/-!
# Timestamps

A time is counted in seconds from the beginning of 1970 and written as a date and a time of day in
UTC.  The calendar repeats itself every four hundred years; a year is taken to begin with March, so
that the leap day is its last.
-/

namespace StylesheetTrace.Service

open StylesheetTrace.Text

/-- A day of the calendar. -/
structure Day where
  /-- The year. -/
  year : Int
  /-- The month, from 1. -/
  month : Nat
  /-- The day of the month, from 1. -/
  day : Nat
  deriving Repr, DecidableEq

/-- How many days four hundred years have. -/
def daysOfCycle : Nat := 146097

/-- How many days pass from the first of March of the year 0 to the beginning of 1970. -/
def daysTo1970 : Nat := 719468

/-- The day that is a number of days after the beginning of 1970. -/
def Day.ofCount (count : Int) : Day :=
  let z := count + daysTo1970
  let inCycle := (z.fmod daysOfCycle).toNat
  let year := (inCycle - inCycle / 1460 + inCycle / 36524 - inCycle / 146096) / 365
  let inYear := inCycle - (365 * year + year / 4 - year / 100)
  let fromMarch := (5 * inYear + 2) / 153
  let month := if fromMarch < 10 then fromMarch + 3 else fromMarch - 9
  { year := z.fdiv daysOfCycle * 400 + year + (if month ≤ 2 then 1 else 0)
    month
    day := inYear - (153 * fromMarch + 2) / 5 + 1 }

/-- How many seconds a day has. -/
def secondsOfDay : Nat := 86400

/-- The text of a time in seconds. -/
def timestamp (seconds : Int) : String :=
  let d := Day.ofCount (seconds.fdiv secondsOfDay)
  let t := (seconds.fmod secondsOfDay).toNat
  s!"{padded 4 d.year.toNat}-{padded 2 d.month}-{padded 2 d.day}" ++
    s!"T{padded 2 (t / 3600)}:{padded 2 (t / 60 % 60)}:{padded 2 (t % 60)}Z"

end StylesheetTrace.Service
