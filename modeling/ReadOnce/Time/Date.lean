/-!
# Civil dates

Dates of the proleptic Gregorian calendar and the count of days from 1970-01-01. Both directions
count from the first of March, so that the leap day ends its year, and in eras of 400 years, which
all have 146097 days.
-/

namespace ReadOnce

/-- A day of the calendar; year 0 precedes year 1. -/
structure Date where
  year : Int
  month : Nat
  day : Nat
  deriving DecidableEq, Repr

namespace Date

/-- The first year of the calendar that instants reach. -/
def firstYear : Int := -262143

/-- The last year of the calendar that instants reach. -/
def lastYear : Int := 262142

/-- Days from 0000-03-01 to 1970-01-01. -/
def epochOffset : Int := 719468

/-- Days before year `y` of an era, for years that start in March. -/
def daysBeforeYear (y : Nat) : Nat :=
  365 * y + y / 4 - y / 100

/-- Days before month `m` of a year that starts in March, with March as month 0. -/
def daysBeforeMonth (m : Nat) : Nat :=
  (153 * m + 2) / 5

/-- The year of an era that holds its day `d`. -/
def yearOfDay (d : Nat) : Nat :=
  (d - d / 1460 + d / 36524 - d / 146096) / 365

/-- The date that lies `n` days after 1970-01-01. -/
def ofDays (n : Int) : Date :=
  let z := n + epochOffset
  let dayOfEra := (z % 146097).toNat
  let y := yearOfDay dayOfEra
  let dayOfYear := dayOfEra - daysBeforeYear y
  let m := (5 * dayOfYear + 2) / 153
  { year := y + z / 146097 * 400 + (if m < 10 then 0 else 1)
    month := if m < 10 then m + 3 else m - 9
    day := dayOfYear - daysBeforeMonth m + 1 }

/-- Days from 1970-01-01 to a date. -/
def toDays (d : Date) : Int :=
  let y := if d.month ≤ 2 then d.year - 1 else d.year
  let m := if d.month ≤ 2 then d.month + 9 else d.month - 3
  let dayOfEra := daysBeforeYear (y % 400).toNat + daysBeforeMonth m + (d.day - 1)
  y / 400 * 146097 + dayOfEra - epochOffset

def isLeapYear (y : Int) : Bool :=
  y % 4 == 0 && (y % 100 != 0 || y % 400 == 0)

def daysInMonth (y : Int) (m : Nat) : Nat :=
  if m = 2 then (if isLeapYear y then 29 else 28)
  else if m = 4 ∨ m = 6 ∨ m = 9 ∨ m = 11 then 30
  else 31

/-- Whether the calendar has the date, within the years that instants reach. -/
def isValid (d : Date) : Bool :=
  firstYear ≤ d.year && d.year ≤ lastYear && 1 ≤ d.month && d.month ≤ 12 && 1 ≤ d.day &&
    d.day ≤ daysInMonth d.year d.month

end Date

end ReadOnce
