import TaskWatch.Time.Calendar

/-!
# Dates and times in settings documents

A date, a time of day, or a date and a time of day with or without an offset. Every number has its
full count of digits, and the date has to exist.

## Main definitions

* `Toml.moment?` — a date, a time of day, or both.
-/

namespace TaskWatch.Toml

/-- The number written by exactly so many digits. -/
def digitGroup? (count : Nat) (text : List Char) : Option (Nat × List Char) :=
  let digits := text.take count
  if digits.length = count && digits.all Char.isDigit then
    some (digits.foldl (fun n c => n * 10 + (c.toNat - '0'.toNat)) 0, text.drop count)
  else none

/-- A character. -/
def mark? (mark : Char) : List Char → Option (List Char)
  | c :: rest => if c = mark then some rest else none
  | [] => none

/-- A number of two digits within limits. -/
def pairWithin? (least greatest : Nat) (text : List Char) : Option (Nat × List Char) := do
  let (n, rest) ← digitGroup? 2 text
  if least ≤ n && n ≤ greatest then some (n, rest) else none

/-- A date that exists. -/
def date? (text : List Char) : Option (List Char) := do
  let (year, rest) ← digitGroup? 4 text
  let rest ← mark? '-' rest
  let (month, rest) ← pairWithin? 1 12 rest
  let rest ← mark? '-' rest
  let (day, rest) ← pairWithin? 1 31 rest
  if day ≤ Date.daysInMonth year month then some rest else none

/-- Skip a fraction of a second if there is one. -/
def skipFraction : List Char → List Char
  | '.' :: c :: rest => if c.isDigit then rest.dropWhile Char.isDigit else '.' :: c :: rest
  | text => text

/-- A time of day; its last minute may have a leap second. -/
def clock? (text : List Char) : Option (List Char) := do
  let (_, rest) ← pairWithin? 0 23 text
  let rest ← mark? ':' rest
  let (_, rest) ← pairWithin? 0 59 rest
  let rest ← mark? ':' rest
  let (_, rest) ← pairWithin? 0 60 rest
  pure (skipFraction rest)

/-- An offset in hours and minutes, behind its sign. -/
def offset? (text : List Char) : Option (List Char) := do
  let (_, rest) ← pairWithin? 0 23 text
  let rest ← mark? ':' rest
  let (_, rest) ← pairWithin? 0 59 rest
  pure rest

/-- Skip an offset if there is one. -/
def skipOffset : List Char → List Char
  | c :: rest =>
    if c = 'Z' || c = 'z' then rest
    else if c = '+' || c = '-' then (offset? rest).getD (c :: rest)
    else c :: rest
  | [] => []

/-- Skip a time of day with its offset, if a date is followed by one. -/
def skipClock : List Char → List Char
  | c :: rest =>
    if c = 'T' || c = 't' || c = ' ' then
      match clock? rest with
      | some rest => skipOffset rest
      | none => c :: rest
    else c :: rest
  | [] => []

/-- A date, a time of day, or both. -/
def moment? (text : List Char) : Option (List Char) :=
  match date? text with
  | some rest => some (skipClock rest)
  | none => clock? text

end TaskWatch.Toml
