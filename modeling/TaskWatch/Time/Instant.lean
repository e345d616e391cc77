import TaskWatch.Time.Calendar

/-!
# Points in time

A point in time is a day, a second of that day and a fraction in nanoseconds. A leap second is
kept as the second before it with a fraction of a second or more, and is written back as `:60`.

## Main definitions

* `Instant` — a point in time.
* `Instant.before` — the order of points in time.
* `Instant.timestamp` — the text with the date, the time of day and a fraction that is exact.
* `Instant.plain` — the text with the date and the time of day alone.
-/

namespace TaskWatch

/-- A point in time. -/
structure Instant where
  /-- Days since the first of January 1970. -/
  day : Int
  /-- Seconds since midnight, below `86400`. -/
  second : Nat
  /-- Nanoseconds since the second began, from `10 ^ 9` on during the leap second after it. -/
  nano : Nat
deriving DecidableEq, Repr

namespace Instant

/-- The start of 1970. -/
def epoch : Instant := ⟨0, 0, 0⟩

instance : Inhabited Instant := ⟨epoch⟩

/-- The nanoseconds of a second. -/
def nanosPerSecond : Nat := 1000000000

/-- The seconds of a day. -/
def secondsPerDay : Nat := 86400

/-- Whether one point in time comes before another. -/
def before (a b : Instant) : Bool :=
  a.day < b.day || a.day == b.day &&
    (a.second < b.second || a.second == b.second && a.nano < b.nano)

/-- The point in time a number of nanoseconds after the start of 1970. -/
def ofNanos (nanos : Nat) : Instant :=
  let seconds := nanos / nanosPerSecond
  ⟨seconds / secondsPerDay, seconds % secondsPerDay, nanos % nanosPerSecond⟩

/-- The digits of a number, padded with zeros in front. -/
def padded (width n : Nat) : List Char :=
  let digits := Nat.toDigits 10 n
  List.replicate (width - digits.length) '0' ++ digits

/-- A year: four digits, signed when it needs another number of digits or is negative. -/
def yearText (year : Int) : List Char :=
  if 0 ≤ year ∧ year ≤ 9999 then padded 4 year.natAbs
  else (if year < 0 then '-' else '+') :: padded 4 year.natAbs

/-- The date as year, month and day. -/
def dateText (t : Instant) : List Char :=
  let date := Date.ofDay t.day
  yearText date.year ++ '-' :: padded 2 date.month ++ '-' :: padded 2 date.day

/-- The time of day as hour, minute and second; a leap second is second sixty. -/
def clockText (t : Instant) : List Char :=
  let second := t.second % 60 + t.nano / nanosPerSecond
  padded 2 (t.second / 3600) ++ ':' :: padded 2 (t.second / 60 % 60) ++ ':' :: padded 2 second

/-- The fraction in three, six or nine digits, whichever is the first to be exact; nothing for a
whole second. -/
def fractionText (nano : Nat) : List Char :=
  if nano = 0 then []
  else if nano % 1000000 = 0 then '.' :: padded 3 (nano / 1000000)
  else if nano % 1000 = 0 then '.' :: padded 6 (nano / 1000)
  else '.' :: padded 9 nano

/-- The text of a point in time in Coordinated Universal Time. -/
def timestamp (t : Instant) : List Char :=
  t.dateText ++ 'T' :: t.clockText ++ fractionText (t.nano % nanosPerSecond) ++ ['Z']

/-- Date and time of day with a blank between them, without a fraction. -/
def plain (t : Instant) : List Char := t.dateText ++ ' ' :: t.clockText

end Instant

end TaskWatch
