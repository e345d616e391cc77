import TaskWatch.Time.Instant
import TaskWatch.Text.Space

/-!
# Reading points in time

The relaxed timestamp format: a date, one of `T`, `t` and a blank, a time of day with an optional
fraction, and an offset from Coordinated Universal Time. White space may stand before every
number and separator, and around the offset. Numbers need no leading zeros, years may be signed,
and digits of a fraction after the ninth are ignored.

## Main definitions

* `Instant.read?` — the point in time of a text, if the date exists and the time of day and the
  offset are in range.
-/

namespace TaskWatch.Instant

open TaskWatch.Text

/-- The value of a run of digits. -/
def digitsValue (digits : List Char) : Nat :=
  digits.foldl (fun n c => n * 10 + (c.toNat - '0'.toNat)) 0

/-- At least one and at most `most` digits. -/
def readDigits (most : Nat) (text : List Char) : Option (Nat × List Char) :=
  let digits := (text.take most).takeWhile Char.isDigit
  if digits.isEmpty then none else some (digitsValue digits, text.drop digits.length)

/-- White space and a number of at most two digits. -/
def readPair (text : List Char) : Option (Nat × List Char) := readDigits 2 (skipSpace text)

/-- White space and a year: any number of digits after a sign, at most four without one. -/
def readYear (text : List Char) : Option (Int × List Char) :=
  match skipSpace text with
  | '-' :: rest => (readDigits rest.length rest).map fun (n, rest) => (-(n : Int), rest)
  | '+' :: rest => (readDigits rest.length rest).map fun (n, rest) => ((n : Int), rest)
  | text => (readDigits 4 text).map fun (n, rest) => ((n : Int), rest)

/-- White space and a separator. -/
def readMark (mark : Char) (text : List Char) : Option (List Char) :=
  match skipSpace text with
  | c :: rest => if c = mark then some rest else none
  | [] => none

/-- A date that exists. -/
def readDate (text : List Char) : Option (Date × List Char) := do
  let (year, text) ← readYear text
  let text ← readMark '-' text
  let (month, text) ← readPair text
  let text ← readMark '-' text
  let (day, text) ← readPair text
  let date : Date := ⟨year, month, day⟩
  if date.exists? then some (date, text) else none

/-- The fraction of a second in nanoseconds. -/
def readFraction (text : List Char) : Option (Nat × List Char) :=
  match text with
  | '.' :: rest =>
    let digits := rest.takeWhile Char.isDigit
    if digits.isEmpty then none
    else
      let kept := digits.take 9
      some (digitsValue kept * Nat.pow 10 (9 - kept.length), rest.drop digits.length)
  | text => some (0, text)

/-- A time of day: seconds since midnight and nanoseconds, the sixtieth second being the
fifty-ninth with another second of nanoseconds. -/
def readClock (text : List Char) : Option ((Nat × Nat) × List Char) := do
  let (hour, text) ← readPair text
  let text ← readMark ':' text
  let (minute, text) ← readPair text
  let text ← readMark ':' text
  let (second, text) ← readPair text
  let (nano, text) ← readFraction text
  if 23 < hour ∨ 59 < minute ∨ 60 < second then none
  else if second = 60 then some ((hour * 3600 + minute * 60 + 59, nano + nanosPerSecond), text)
  else some ((hour * 3600 + minute * 60 + second, nano), text)

/-- Two digits. -/
def readTwo (text : List Char) : Option (Nat × List Char) :=
  match text with
  | a :: b :: rest =>
    if a.isDigit && b.isDigit then some (digitsValue [a, b], rest) else none
  | _ => none

/-- Hours and minutes of an offset, in minutes: two digits, any colons and white space, and two
digits below sixty. -/
def readOffsetSize (text : List Char) : Option (Nat × List Char) := do
  let (hours, text) ← readTwo text
  let (minutes, text) ← readTwo (text.dropWhile fun c => c = ':' || isSpace c)
  if 59 < minutes ∨ 24 * 60 ≤ hours * 60 + minutes then none
  else some (hours * 60 + minutes, text)

/-- An offset in minutes: `Z`, `UTC` in either case, or a sign and a size. -/
def readOffset (text : List Char) : Option (Int × List Char) :=
  match text with
  | 'Z' :: rest | 'z' :: rest => some (0, rest)
  | '+' :: rest => (readOffsetSize rest).map fun (n, rest) => ((n : Int), rest)
  | '-' :: rest | '−' :: rest => (readOffsetSize rest).map fun (n, rest) => (-(n : Int), rest)
  | u :: t :: c :: rest =>
    if [u.toUpper, t.toUpper, c.toUpper] = ['U', 'T', 'C'] then some (0, rest) else none
  | _ => none

/-- The first day that can be represented. -/
def leastDay : Int := (Date.mk Date.leastYear 1 1).toDay

/-- The last day that can be represented. -/
def greatestDay : Int := (Date.mk Date.greatestYear 12 31).toDay

/-- The point in time of a local date and time of day. -/
def ofLocal (date : Date) (second nano : Nat) (offset : Int) : Option Instant :=
  let seconds : Int := second - offset * 60
  let day := date.toDay + seconds / secondsPerDay
  if leastDay ≤ day ∧ day ≤ greatestDay then
    some ⟨day, (seconds % secondsPerDay).toNat, nano⟩
  else none

/-- The point in time of a text. -/
def read? (text : List Char) : Option Instant := do
  let (date, text) ← readDate text
  let text ← match text with
    | c :: rest => if c = 'T' ∨ c = 't' ∨ c = ' ' then some rest else none
    | [] => none
  let ((second, nano), text) ← readClock text
  let (offset, text) ← readOffset (skipSpace text)
  if (skipSpace text).isEmpty then ofLocal date second nano offset else none

end TaskWatch.Instant
