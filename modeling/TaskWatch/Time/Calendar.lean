/-!
# The civil calendar

The proleptic Gregorian calendar, with the years before year one counted `0`, `-1`, and so on.
Days are counted from the first of January 1970. Months are counted from March, so that the leap
day ends a year and the days before a month follow one formula.

## Main definitions

* `Date` — a year, a month and a day of the month.
* `Date.toDay`, `Date.ofDay` — the day count of a date and the date of a day count.
-/

namespace TaskWatch

/-- A date of the civil calendar. -/
structure Date where
  /-- The year; `0` is the year before year one. -/
  year : Int
  /-- The month, from one. -/
  month : Nat
  /-- The day of the month, from one. -/
  day : Nat
deriving DecidableEq, Repr

namespace Date

/-- Whether a year has a leap day. -/
def isLeapYear (year : Int) : Bool :=
  year % 4 == 0 && (year % 100 != 0 || year % 400 == 0)

/-- The number of days of a month. -/
def daysInMonth (year : Int) (month : Nat) : Nat :=
  if month = 2 then (if isLeapYear year then 29 else 28)
  else if month = 4 ∨ month = 6 ∨ month = 9 ∨ month = 11 then 30
  else 31

/-- The first and the last year that can be represented. -/
def leastYear : Int := -262143

/-- The last year that can be represented. -/
def greatestYear : Int := 262142

/-- Whether the date exists and can be represented. -/
def exists? (d : Date) : Bool :=
  leastYear ≤ d.year && d.year ≤ greatestYear && 1 ≤ d.month && d.month ≤ 12 &&
    1 ≤ d.day && d.day ≤ daysInMonth d.year d.month

/-- Days from the first of March of year zero to the first of January 1970. -/
def epoch : Int := 719468

/-- The day count of a date. -/
def toDay (d : Date) : Int :=
  let year := if d.month ≤ 2 then d.year - 1 else d.year
  let month := (d.month + 9) % 12
  let era := year / 400
  let yearOfEra := year % 400
  let dayOfYear : Int := (153 * month + 2) / 5 + d.day - 1
  era * 146097 + yearOfEra * 365 + yearOfEra / 4 - yearOfEra / 100 + dayOfYear - epoch

/-- The date of a day count. -/
def ofDay (day : Int) : Date :=
  let shifted := day + epoch
  let era := shifted / 146097
  let dayOfEra := shifted % 146097
  let yearOfEra :=
    (dayOfEra - dayOfEra / 1460 + dayOfEra / 36524 - dayOfEra / 146096) / 365
  let dayOfYear := dayOfEra - (365 * yearOfEra + yearOfEra / 4 - yearOfEra / 100)
  let month := (5 * dayOfYear + 2) / 153
  let dayOfMonth := dayOfYear - (153 * month + 2) / 5 + 1
  let civilMonth := if month < 10 then month + 3 else month - 9
  let year := yearOfEra + era * 400
  ⟨if civilMonth ≤ 2 then year + 1 else year, civilMonth.toNat, dayOfMonth.toNat⟩

end Date

end TaskWatch
