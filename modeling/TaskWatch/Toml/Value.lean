import TaskWatch.Toml.Basic
import TaskWatch.Toml.Text
import TaskWatch.Toml.Number
import TaskWatch.Toml.Moment

/-!
# Reading keys and values

A key is one name or several names joined by points. A value is a text, a truth value, a date or
time, a number, an array, or a table written inline. Arrays and inline tables lie in one another at
most `Toml.deepest` deep, and a key has fewer names than `Toml.mostNames`.

## Main definitions

* `Toml.key?` — a key.
* `Toml.value?` — a value.
-/

namespace TaskWatch.Toml

/-- Whether a character may stand in a name without quotes. -/
def isBare (c : Char) : Bool := c.isAlphanum || c = '-' || c = '_'

/-- One name. -/
def name? (text : List Char) : Option (String × List Char) :=
  match text with
  | '"' :: _ | '\'' :: _ => lineText? text
  | _ =>
    let name := text.takeWhile isBare
    if name.isEmpty then none else some (String.ofList name, text.dropWhile isBare)

/-- The names behind the first one, each behind a point; `steps` bounds their number. A point
without a name behind it stays. -/
def moreNames (steps : Nat) (text : List Char) : List String × List Char :=
  match steps, text with
  | steps + 1, '.' :: rest =>
    match name? (skipBlanks rest) with
    | none => ([], text)
    | some (name, rest) =>
      let (names, rest) := moreNames steps (skipBlanks rest)
      (name :: names, rest)
  | _, _ => ([], text)

/-- A key with this many names is refused. -/
def mostNames : Nat := 80

/-- A key: the names before the last one, and the last one. -/
def key? (text : List Char) : Option ((List String × String) × List Char) := do
  let (first, rest) ← name? (skipBlanks text)
  let (names, rest) := moreNames rest.length (skipBlanks rest)
  if mostNames ≤ names.length + 1 then none
  else match (first :: names).getLast? with
    | none => none
    | some last => some (((first :: names).dropLast, last), rest)

/-- A reader of values. -/
abbrev ValueReader : Type := List Char → Option (Toml × List Char)

/-- The items of an array, up to the closing bracket; `steps` bounds their number. A comma may
follow the last one. -/
def items? (item : ValueReader) : (steps : Nat) → List Char → Option (List Toml × List Char)
  | 0, _ => none
  | steps + 1, text =>
    match skipFiller false text with
    | ']' :: rest => some ([], rest)
    | text => do
      let (first, rest) ← item text
      match skipFiller false rest with
      | ']' :: rest => pure ([first], rest)
      | ',' :: rest =>
        let (others, rest) ← items? item steps rest
        pure (first :: others, rest)
      | _ => none

/-- One assignment of an inline table. -/
def assignment? (item : ValueReader) (text : List Char) (members : Members) :
    Option (Members × List Char) := do
  let ((dotted, name), rest) ← key? text
  match rest with
  | '=' :: rest =>
    let (value, rest) ← item (skipBlanks rest)
    let members ← members.assign [] dotted name value
    pure (members, skipBlanks rest)
  | _ => none

/-- The assignments of an inline table behind the first one, up to the closing brace. -/
def assignments? (item : ValueReader) (members : Members) :
    (steps : Nat) → List Char → Option (Members × List Char)
  | 0, _ => none
  | steps + 1, text =>
    match text with
    | '\x7d' :: rest => some (members, rest)
    | ',' :: rest => do
      let (members, rest) ← assignment? item rest members
      assignments? item members steps rest
    | _ => none

/-- The members of an inline table, up to the closing brace. -/
def inline? (item : ValueReader) (text : List Char) : Option (Members × List Char) :=
  match skipBlanks text with
  | '\x7d' :: rest => some ([], rest)
  | text => do
    let (members, rest) ← assignment? item text []
    assignments? item members (rest.length + 1) rest

/-- A value that begins like a number: a date or time, a number with a fraction, or a whole one. -/
def numeral? : ValueReader := fun text =>
  match moment? text, real? text with
  | some rest, _ => some (.moment, rest)
  | none, some rest => some (.real, rest)
  | none, none => (whole? text).map fun (n, rest) => (.whole n, rest)

/-- A value whose items and members are read by `item`. -/
def valueWith? (item : Option ValueReader) : ValueReader := fun text =>
  match text with
  | '"' :: _ | '\'' :: _ => (text? text).map fun (s, rest) => (.string s, rest)
  | '[' :: rest => do
    let (items, rest) ← items? (← item) (rest.length + 1) rest
    pure (.array items, rest)
  | '\x7b' :: rest => do
    let (members, rest) ← inline? (← item) rest
    pure (.table .inline members, rest)
  | 't' :: 'r' :: 'u' :: 'e' :: rest => some (.truth true, rest)
  | 'f' :: 'a' :: 'l' :: 's' :: 'e' :: rest => some (.truth false, rest)
  | _ => numeral? text

/-- How deep arrays and inline tables may lie in one another. -/
def deepest : Nat := 79

/-- A value with arrays and inline tables in one another at most `room` deep. -/
def valueWithin? : (room : Nat) → ValueReader
  | 0 => valueWith? none
  | room + 1 => valueWith? (some (valueWithin? room))

/-- A value. -/
def value? : ValueReader := valueWithin? deepest

end TaskWatch.Toml
