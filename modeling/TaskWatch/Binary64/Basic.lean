/-!
# Finite binary64 numbers

The finite numbers of the 64-bit binary format, kept as a sign, a whole mantissa and a power of
two. Rounding, multiplication and division are done in exact whole-number arithmetic and then
rounded once, to the nearest number of the format and to an even mantissa on a tie.

## Main definitions

* `Binary64` — a sign, a mantissa and an exponent.
* `Binary64.ofRatio` — the number nearest to a quotient of naturals.
* `Binary64.mul`, `Binary64.div` — correctly rounded product and quotient.
-/

namespace TaskWatch

/-- The finite number `±mantissa * 2 ^ exponent`. -/
structure Binary64 where
  /-- Whether the number carries a minus sign; zero has one too. -/
  negative : Bool
  /-- The whole mantissa, below `2 ^ 53`. -/
  mantissa : Nat
  /-- The power of two, from `-1074` to `971`. -/
  exponent : Int
deriving Repr

namespace Binary64

/-- The least power of two of the format. -/
def leastExponent : Int := -1074

/-- The greatest power of two of the format. -/
def greatestExponent : Int := 971

/-- Zero with the given sign. -/
def zero (negative : Bool) : Binary64 := ⟨negative, 0, leastExponent⟩

instance : Inhabited Binary64 := ⟨zero false⟩

/-- Whether the number is one of the two zeros. -/
def isZero (x : Binary64) : Bool := x.mantissa == 0

/-- Numbers are compared by value, so the two zeros are equal. -/
instance : BEq Binary64 where
  beq x y := x.isZero && y.isZero ||
    x.negative == y.negative && x.mantissa == y.mantissa && x.exponent == y.exponent

/-- The same number with the given sign. -/
def withSign (negative : Bool) (x : Binary64) : Binary64 := { x with negative }

/-- The whole number nearest to a quotient, the even one of two. -/
def roundDiv (num den : Nat) : Nat :=
  let quotient := num / den
  let twice := 2 * (num % den)
  if twice < den then quotient
  else if den < twice then quotient + 1
  else quotient + quotient % 2

/-- The greatest power of two that does not exceed the quotient of two positive numbers. -/
def magnitude (num den : Nat) : Int :=
  let guess := (Nat.log2 num : Int) - Nat.log2 den
  if den * Nat.pow 2 guess.toNat ≤ num * Nat.pow 2 (-guess).toNat then guess else guess - 1

/-- The number nearest to a quotient of naturals with a positive denominator, an even mantissa
on a tie. There is none when the quotient is too large for the format. -/
def ofRatio (negative : Bool) (num den : Nat) : Option Binary64 :=
  if num = 0 then some (zero negative)
  else
    let exponent := max (magnitude num den - 52) leastExponent
    let mantissa := roundDiv (num * Nat.pow 2 (-exponent).toNat) (den * Nat.pow 2 exponent.toNat)
    let (mantissa, exponent) :=
      if mantissa = 9007199254740992 then (4503599627370496, exponent + 1) else (mantissa, exponent)
    if greatestExponent < exponent then none else some ⟨negative, mantissa, exponent⟩

/-- The number nearest to a natural. -/
def ofNat (n : Nat) : Option Binary64 := ofRatio false n 1

/-- The number nearest to a power of ten. -/
def powerOfTen (k : Nat) : Option Binary64 := ofNat (Nat.pow 10 k)

/-- The absolute value as a fraction in whole numbers. -/
def toRatio (x : Binary64) : Nat × Nat :=
  (x.mantissa * Nat.pow 2 x.exponent.toNat, Nat.pow 2 (-x.exponent).toNat)

/-- The product, rounded once; nothing when it is too large. -/
def mul (x y : Binary64) : Option Binary64 :=
  let (a, b) := x.toRatio
  let (c, d) := y.toRatio
  ofRatio (x.negative != y.negative) (a * c) (b * d)

/-- The quotient by a number other than zero, rounded once; nothing when it is too large. -/
def div (x y : Binary64) : Option Binary64 :=
  let (a, b) := x.toRatio
  let (c, d) := y.toRatio
  ofRatio (x.negative != y.negative) (a * d) (b * c)

end Binary64

end TaskWatch
