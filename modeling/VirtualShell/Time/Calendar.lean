/-!
# The calendar

Years, months and days of the Gregorian calendar, the weeks of a year, and the day that lies a
number of days after another. Days of a year count from zero here, days of a month from one.
-/

namespace VirtualShell.Time

/-- A year of 366 days. -/
def isLeap (year : Nat) : Bool :=
  year % 4 == 0 && (year % 100 != 0 || year % 400 == 0)

/-- The number of days in a year. -/
def daysInYear (year : Nat) : Nat :=
  if isLeap year then 366 else 365

/-- The number of days in a month, counted from one. -/
def daysInMonth (year month : Nat) : Nat :=
  if month = 2 then (if isLeap year then 29 else 28)
  else if month = 4 ∨ month = 6 ∨ month = 9 ∨ month = 11 then 30
  else 31

/-- The number of days from the first day of the year 1 to the first day of a year. -/
def daysBeforeYear (year : Nat) : Nat :=
  let y := year - 1
  y * 365 + y / 4 - y / 100 + y / 400

/-- The weekday of the first day of a year; Monday is zero. -/
def firstWeekday (year : Nat) : Nat :=
  daysBeforeYear year % 7

/-- The month and the day of the month for a day of the year, going through the months from the
given one on. -/
def monthAndDay (year : Nat) : Nat → Nat → Nat → Nat × Nat
  | 0, month, n => (month, n + 1)
  | fuel + 1, month, n =>
    if n < daysInMonth year month then (month, n + 1)
    else monthAndDay year fuel (month + 1) (n - daysInMonth year month)

/-- Year, month and day for a day of a year, which may lie up to a year before or after it. -/
def dateOfYearDay (year : Nat) (n : Int) : Nat × Nat × Nat :=
  if n < 0 then
    (year - 1, monthAndDay (year - 1) 11 1 (daysInYear (year - 1) + n).toNat)
  else if n < daysInYear year then (year, monthAndDay year 11 1 n.toNat)
  else (year + 1, monthAndDay (year + 1) 11 1 (n - daysInYear year).toNat)

/-- Whether a year has 53 weeks: it starts on a Thursday, or it is a leap year that starts on a
Wednesday. -/
def hasLongLastWeek (year : Nat) : Bool :=
  firstWeekday year == 3 || (firstWeekday year == 2 && isLeap year)

/-- The date of a weekday in a numbered week; the first week of a year is the one with its first
Thursday. -/
def dateOfWeek? (year week weekday : Nat) : Option (Nat × Nat × Nat) :=
  let weeks := if hasLongLastWeek year then 53 else 52
  if 1 ≤ year ∧ year ≤ 9999 ∧ 1 ≤ week ∧ week ≤ weeks ∧ 1 ≤ weekday ∧ weekday ≤ 7 then
    let first := firstWeekday year
    let monday : Int := if 3 < first then 7 - (first : Int) else -(first : Int)
    some (dateOfYearDay year (monday + (week - 1) * 7 + (weekday - 1)))
  else none

/-- The year that holds the day which lies `n` days after the first day of a year, and the day of
that year. -/
def yearAndDay : Nat → Nat → Nat → Nat × Nat
  | 0, year, n => (year, n)
  | fuel + 1, year, n =>
    if n < daysInYear year then (year, n)
    else yearAndDay fuel (year + 1) (n - daysInYear year)

/-- The date that lies a number of days after the first day of 1970. -/
def dateOfEpochDay (n : Nat) : Nat × Nat × Nat :=
  let (year, day) := yearAndDay n 1970 n
  (year, monthAndDay year 11 1 day)

end VirtualShell.Time
