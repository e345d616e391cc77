import TaskWatch.Json.Basic

/-!
# JSON numbers

The value of a number as it is written. A number without fraction and exponent that fits 64 bits,
signed or unsigned, is a whole number; minus zero and everything else is a binary64 number.

The binary64 number is found in one rounding step from a 64-bit significand: the digits are read
as long as they fit 64 bits, further ones before the point count as a power of ten and further
ones behind it are ignored; the significand, rounded, is then multiplied or divided by the rounded
power of ten. A number that comes out too large is refused.

## Main definitions

* `Json.NumberText` — the parts of a written number.
* `Json.NumberText.value?` — its value.
-/

namespace TaskWatch.Json

/-- The digits of a written number. -/
structure NumberText where
  /-- Whether a minus sign stands in front. -/
  negative : Bool
  /-- The digits before the point. -/
  whole : List Char
  /-- The digits behind the point, if there is one. -/
  fraction : Option (List Char)
  /-- Whether the exponent is negative, and its digits, if there is one. -/
  exponent : Option (Bool × List Char)

/-- The value of a digit. -/
def digitValue (c : Char) : Nat := c.toNat - '0'.toNat

/-- The first number that does not fit 64 bits. -/
def wordLimit : Nat := 18446744073709551616

/-- The digits read as a number. -/
def digitsValue (digits : List Char) : Nat :=
  digits.foldl (fun n c => n * 10 + digitValue c) 0

/-- Read digits onto a significand as long as it fits 64 bits: the significand, and the digits
that were left. -/
def significand (start : Nat) : List Char → Nat × List Char
  | [] => (start, [])
  | c :: rest =>
    let next := start * 10 + digitValue c
    if next < wordLimit then significand next rest else (start, c :: rest)

/-- A number divided by a power of ten, in steps of at most `10 ^ 308`. -/
def divideByPower (x : Binary64) : (steps exponent : Nat) → Binary64
  | 0, _ => .zero false
  | steps + 1, exponent =>
    if x.isZero then x
    else
      let step := min exponent 308
      let smaller := ((Binary64.powerOfTen step).bind x.div).getD (.zero false)
      if exponent ≤ 308 then smaller else divideByPower smaller steps (exponent - 308)

/-- A number times a power of ten: nothing when it is too large. Four divisions by `10 ^ 308`
leave nothing of any 64-bit significand. -/
def scale? (x : Binary64) (exponent : Int) : Option Binary64 :=
  if exponent < 0 then some (divideByPower x 4 exponent.natAbs)
  else if x.isZero then some x
  else if 308 < exponent then none
  else (Binary64.powerOfTen exponent.toNat).bind x.mul

namespace NumberText

/-- The greatest exponent that is read exactly; a larger one decides by itself. -/
def greatestExponent : Nat := 2147483647

/-- The absolute value as a binary64 number. -/
def real? (n : NumberText) : Option Binary64 :=
  let (wholePart, wholeLeft) := significand 0 n.whole
  let fraction := n.fraction.getD []
  let (digits, fractionLeft) := significand wholePart fraction
  let shift : Int := wholeLeft.length - (fraction.length - fractionLeft.length : Int)
  let (smaller, size) := match n.exponent with
    | none => (false, 0)
    | some (smaller, digits) => (smaller, digitsValue digits)
  if greatestExponent < size then
    if digits = 0 ∨ smaller then some (.zero false) else none
  else
    (Binary64.ofNat digits).bind fun x => scale? x (if smaller then shift - size else shift + size)

/-- The value of a written number, unless it is too large. -/
def value? (n : NumberText) : Option Json :=
  let size := digitsValue n.whole
  let isWhole := n.fraction.isNone && n.exponent.isNone
  if isWhole && !n.negative && size < wordLimit then some (.whole size)
  else if isWhole && n.negative && 0 < size && size ≤ 9223372036854775808 then some (.whole (-size))
  else n.real?.map fun x => .real (x.withSign n.negative)

/-- Split a written number into its parts. -/
def ofChars (text : List Char) : NumberText :=
  let negative := text.head? == some '-'
  let text := if negative then text.drop 1 else text
  let whole := text.takeWhile Char.isDigit
  let rest := text.drop whole.length
  let (fraction, rest) := match rest with
    | '.' :: rest => (some (rest.takeWhile Char.isDigit), rest.dropWhile Char.isDigit)
    | rest => (none, rest)
  let exponent := match rest with
    | _ :: '-' :: digits => some (true, digits)
    | _ :: '+' :: digits => some (false, digits)
    | _ :: digits => some (false, digits)
    | [] => none
  ⟨negative, whole, fraction, exponent⟩

end NumberText

end TaskWatch.Json
