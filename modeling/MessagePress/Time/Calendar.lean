/-! The proleptic Gregorian calendar in UTC. An instant counts seconds from the start of
1970; days are counted from the first day of year one, years below it included. -/

namespace MessagePress.Time

/-- Nanoseconds from `10 ^ 9` on stand for a leap second after the last second of a minute. -/
structure Instant where
  seconds : Int
  nanoseconds : Nat
  deriving DecidableEq, Repr

def nanosPerSecond : Nat := 1000000000

/-- Days from the first day of year one to the first day of a year. -/
def daysBeforeYear (year : Int) : Int :=
  let passed := year - 1
  365 * passed + passed / 4 - passed / 100 + passed / 400

/-- The first day of 1970 in days from the first day of year one. -/
def epochDay : Int := 719162

def isLeapYear (year : Int) : Bool :=
  year % 4 == 0 && (year % 100 != 0 || year % 400 == 0)

/-- The year of a day: 400 years have 146097 days, which is at most one year off. -/
def yearOfDay (day : Int) : Int :=
  let guess := day * 400 / 146097 + 1
  if day < daysBeforeYear guess then guess - 1
  else if daysBeforeYear (guess + 1) ≤ day then guess + 1
  else guess

def monthLengths (year : Int) : List Nat :=
  [31, if isLeapYear year then 29 else 28, 31, 30, 31, 30, 31, 31, 30, 31, 30, 31]

/-- The month, from one, and the day in it, from one, of a day counted from zero. -/
def monthAndDay : List Nat → Nat → Nat × Nat
  | [], day => (1, day + 1)
  | length :: rest, day =>
    if day < length then (1, day + 1)
    else
      let (month, dayOfMonth) := monthAndDay rest (day - length)
      (month + 1, dayOfMonth)

/-- A date with what is derived from it: the day of the year from one and the weekday from
zero for Monday. -/
structure Date where
  day : Int
  year : Int
  month : Nat
  dayOfMonth : Nat
  ordinal : Nat
  weekday : Nat
  deriving DecidableEq, Repr

def Date.ofDay (day : Int) : Date :=
  let year := yearOfDay day
  let dayOfYear := (day - daysBeforeYear year).toNat
  let (month, dayOfMonth) := monthAndDay (monthLengths year) dayOfYear
  { day, year, month, dayOfMonth, ordinal := dayOfYear + 1, weekday := (day % 7).toNat }

/-- The day of a year, month and day of month. -/
def dayOfDate (year : Int) (month dayOfMonth : Nat) : Int :=
  daysBeforeYear year + ((monthLengths year).take (month - 1)).foldl Nat.add 0 + dayOfMonth - 1

/-- The Thursday of a date's week, whose year and week number are those of the week. -/
def Date.thursday (date : Date) : Date := Date.ofDay (date.day - date.weekday + 3)

def Date.isoYear (date : Date) : Int := date.thursday.year

def Date.isoWeek (date : Date) : Nat := (date.thursday.ordinal - 1) / 7 + 1

/-- Weeks of the year so far, a week starting with the given weekday. -/
def Date.weeksFrom (date : Date) (start : Nat) : Nat :=
  (date.ordinal + 6 - (date.weekday + 7 - start) % 7) / 7

def Date.quarter (date : Date) : Nat := (date.month - 1) / 3 + 1

def secondsPerDay : Int := 86400

def Instant.date (instant : Instant) : Date :=
  Date.ofDay (instant.seconds / secondsPerDay + epochDay)

def Instant.secondOfDay (instant : Instant) : Nat := (instant.seconds % secondsPerDay).toNat

def Instant.hour (instant : Instant) : Nat := instant.secondOfDay / 3600

def Instant.minute (instant : Instant) : Nat := instant.secondOfDay / 60 % 60

/-- The second as shown; a leap second is second sixty. -/
def Instant.second (instant : Instant) : Nat :=
  instant.secondOfDay % 60 + instant.nanoseconds / nanosPerSecond

/-- Nanoseconds of the shown second. -/
def Instant.fraction (instant : Instant) : Nat := instant.nanoseconds % nanosPerSecond

def Instant.isAfternoon (instant : Instant) : Bool := 12 ≤ instant.hour

/-- The hour on a twelve hour clock. -/
def Instant.hour12 (instant : Instant) : Nat :=
  if instant.hour % 12 = 0 then 12 else instant.hour % 12

end MessagePress.Time
