import TaskWatch.Json.Text

/-!
# Numbers in settings documents

Whole numbers are written in base ten with an optional sign, or in base sixteen, eight or two behind
`0x`, `0o` or `0b`; they have to fit into 64 bits. Other numbers have a fraction, an exponent or
both, or are infinite or no number at all. Single underscores may stand between digits, and a number
in base ten does not begin with a zero unless this is its only digit before the point.

## Main definitions

* `Toml.whole?` — a whole number.
* `Toml.real?` — any other number, which must not be too large.
-/

namespace TaskWatch.Toml

/-- Digits behind a first one, with single underscores between them. -/
def moreDigits? (isDigit : Char → Bool) : List Char → Option (List Char × List Char)
  | '_' :: c :: rest =>
    if isDigit c then (moreDigits? isDigit rest).map fun (cs, rest) => (c :: cs, rest) else none
  | c :: rest =>
    if c = '_' then none
    else if isDigit c then (moreDigits? isDigit rest).map fun (cs, rest) => (c :: cs, rest)
    else some ([], c :: rest)
  | [] => some ([], [])

/-- One digit or more, with single underscores between them. -/
def digits? (isDigit : Char → Bool) : List Char → Option (List Char × List Char)
  | c :: rest =>
    if isDigit c then (moreDigits? isDigit rest).map fun (cs, rest) => (c :: cs, rest) else none
  | [] => none

/-- The sign of a number, if it has one: whether it is negative. -/
def sign : List Char → Bool × List Char
  | '-' :: rest => (true, rest)
  | '+' :: rest => (false, rest)
  | text => (false, text)

/-- The digits of a number in base ten: a zero alone, or digits beginning with another one. -/
def decimalDigits? : List Char → Option (List Char × List Char)
  | '0' :: rest => some (['0'], rest)
  | text => digits? Char.isDigit text

/-- The value of digits in a base. -/
def digitsValue (base : Nat) (digits : List Char) : Nat :=
  digits.foldl (fun n c => n * base + (Json.hexValue? c).getD 0) 0

/-- A number, if it fits into 64 bits. -/
def fitting? (n : Int) : Option Int := if -(9223372036854775808) ≤ n ∧ n < 9223372036854775808 then some n else none

/-- Whether a character is a digit in a base. -/
def isDigitIn (base : Nat) (c : Char) : Bool := (Json.hexValue? c).any (· < base)

/-- A whole number in a base, behind its mark. -/
def wholeIn? (base : Nat) (text : List Char) : Option (Int × List Char) := do
  let (digits, rest) ← digits? (isDigitIn base) text
  let n ← fitting? (digitsValue base digits)
  pure (n, rest)

/-- A whole number. -/
def whole? : List Char → Option (Int × List Char)
  | '0' :: 'x' :: rest => wholeIn? 16 rest
  | '0' :: 'o' :: rest => wholeIn? 8 rest
  | '0' :: 'b' :: rest => wholeIn? 2 rest
  | text => do
    let (isNegative, rest) := sign text
    let (digits, rest) ← decimalDigits? rest
    let n : Int := digitsValue 10 digits
    let n ← fitting? (if isNegative then -n else n)
    pure (n, rest)

/-- The digits behind a point; none without a point. -/
def fraction? : List Char → Option (List Char × List Char)
  | '.' :: rest => digits? Char.isDigit rest
  | text => some ([], text)

/-- The exponent; zero without one. -/
def exponent? : List Char → Option (Int × List Char)
  | c :: rest =>
    if c = 'e' || c = 'E' then do
      let (isNegative, rest) := sign rest
      let (digits, rest) ← digits? Char.isDigit rest
      let n : Int := digitsValue 10 digits
      pure (if isNegative then -n else n, rest)
    else some (0, c :: rest)
  | [] => some (0, [])

/-- The least number that rounds to infinity: halfway between the largest finite number of 53 bits
and the next power of two. -/
def overflowBound : Nat := Nat.pow 2 1024 - Nat.pow 2 970

/-- How many digits the largest finite numbers have. -/
def largestDigits : Int := 309

/-- Whether `mantissa * 10 ^ exponent` rounds to infinity. Its number of digits decides, save near
the bound. -/
def overflows (mantissa : Nat) (exponent : Int) : Bool :=
  let size : Int := (Nat.toDigits 10 mantissa).length + exponent
  if mantissa = 0 || size < largestDigits then false
  else if largestDigits < size then true
  else if 0 ≤ exponent then overflowBound ≤ mantissa * Nat.pow 10 exponent.toNat
  else overflowBound * Nat.pow 10 exponent.natAbs ≤ mantissa

/-- An infinity or no number, behind its sign. -/
def special? : List Char → Option (List Char)
  | 'i' :: 'n' :: 'f' :: rest => some rest
  | 'n' :: 'a' :: 'n' :: rest => some rest
  | _ => none

/-- A number that is not whole. One that is too large is refused, one that is too small is not. -/
def real? (text : List Char) : Option (List Char) :=
  let (isNegative, rest) := sign text
  match special? rest with
  | some rest => some rest
  | none => do
    let (digits, afterDigits) ← decimalDigits? rest
    let (fraction, afterFraction) ← fraction? afterDigits
    let (exponent, rest) ← exponent? afterFraction
    if rest.length = afterDigits.length then none
    else
      let mantissa := digitsValue 10 (digits ++ fraction)
      if !isNegative && overflows mantissa (exponent - fraction.length) then none else some rest

end TaskWatch.Toml
