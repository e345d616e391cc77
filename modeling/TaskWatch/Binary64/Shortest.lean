import TaskWatch.Binary64.Basic

/-!
# Shortest decimal text of a binary64 number

Of all decimals that round to a given number, the text shows one with the fewest digits and, of
those, the nearest. The decimals that round to `m * 2 ^ q` form an interval around it whose ends
belong to it exactly when `m` is even. For one digit, two digits and so on, the two neighbours of
the number on that decimal grid are tried; seventeen digits always suffice.

## Main definitions

* `Binary64.shortest` — the digits and the decimal exponent of the first of them.
* `Binary64.text` — the digits laid out positionally or with an exponent.
-/

namespace TaskWatch.Binary64

/-- A decimal `digits * 10 ^ power`. -/
structure Decimal where
  /-- The digits read as a natural number. -/
  digits : Nat
  /-- The power of ten. -/
  power : Int
deriving Repr

/-- The reals that round to a positive number, in units of a quarter of its last place: from
`low / 4` to `high / 4` times `2 ^ exponent`. -/
structure Interval where
  /-- Lower end, in quarters. -/
  low : Nat
  /-- Upper end, in quarters. -/
  high : Nat
  /-- The power of two of the unit. -/
  exponent : Int
  /-- Whether the ends round to the number, too. -/
  closed : Bool

/-- The interval of reals that round to a positive number. Below a power of two the neighbouring
number is only half as far away. -/
def interval (x : Binary64) : Interval :=
  let m := 4 * x.mantissa
  let below := if x.mantissa = 4503599627370496 ∧ leastExponent < x.exponent then 1 else 2
  ⟨m - below, m + 2, x.exponent, x.mantissa % 2 == 0⟩

/-- Whether the decimal `d * 10 ^ power` lies in the interval. -/
def Interval.contains (i : Interval) (d : Nat) (power : Int) : Bool :=
  let value := 4 * d * Nat.pow 10 power.toNat * Nat.pow 2 (-i.exponent).toNat
  let unit := Nat.pow 10 (-power).toNat * Nat.pow 2 i.exponent.toNat
  if i.closed then i.low * unit ≤ value && value ≤ i.high * unit
  else i.low * unit < value && value < i.high * unit

/-- The floor of a positive number on the grid of multiples of `10 ^ power`, as a multiple, and
whether the upper neighbour is the nearer one (the even one on a tie). -/
def floorOn (x : Binary64) (power : Int) : Nat × Bool :=
  let (a, b) := x.toRatio
  let num := a * Nat.pow 10 (-power).toNat
  let den := b * Nat.pow 10 power.toNat
  let floor := num / den
  let twice := 2 * (num % den)
  (floor, den < twice || (den == twice && floor % 2 == 1))

/-- The better neighbour on the grid of multiples of `10 ^ power` that lies in the interval. -/
def neighbour? (x : Binary64) (i : Interval) (power : Int) : Option Decimal :=
  let (floor, upperNearer) := x.floorOn power
  let lowerIn := i.contains floor power
  let upperIn := i.contains (floor + 1) power
  if upperIn && (upperNearer || !lowerIn) then some ⟨floor + 1, power⟩
  else if lowerIn then some ⟨floor, power⟩
  else none

/-- The greatest power of ten that does not exceed a positive number. -/
def decimalMagnitude (x : Binary64) : Int :=
  let (a, b) := x.toRatio
  if b ≤ a then (Nat.toDigits 10 (a / b)).length - 1
  else
    let places := (Nat.toDigits 10 (b / a)).length
    if b ≤ a * Nat.pow 10 (places - 1) then -(places - 1 : Int) else -(places : Int)

/-- Try grids with more and more digits. -/
def searchGrids (x : Binary64) (i : Interval) (magnitude : Int) : (tries : Nat) → Nat → Decimal
  | 0, digits => ⟨(x.floorOn (magnitude - digits)).1, magnitude - digits⟩
  | tries + 1, digits =>
    match x.neighbour? i (magnitude - digits) with
    | some decimal => decimal
    | none => searchGrids x i magnitude tries (digits + 1)

/-- A decimal with the fewest digits that rounds to a positive number, and the nearest of these. -/
def shortest (x : Binary64) : Decimal :=
  searchGrids x x.interval x.decimalMagnitude 17 0

/-- How digits are laid out: the least and the greatest decimal exponent of the first digit that
is still written positionally. -/
structure Layout where
  /-- The least exponent written positionally. -/
  leastPositional : Int
  /-- The greatest exponent written positionally. -/
  greatestPositional : Int

/-- Numbers from `0.00001` up to below `10 ^ 16` are written positionally. -/
def layout : Layout := ⟨-5, 15⟩

/-- Drop the zeros at the end of a list of digits. -/
def dropTrailingZeros (digits : List Char) : List Char :=
  (digits.reverse.dropWhile (· == '0')).reverse

/-- Digits and exponent of the first digit, laid out: positional texts keep a digit after the
point, and an exponent always carries its sign. -/
def Layout.write (l : Layout) (digits : List Char) (first : Int) : List Char :=
  if l.leastPositional ≤ first ∧ first ≤ l.greatestPositional then
    if first < 0 then
      '0' :: '.' :: List.replicate (-first - 1).toNat '0' ++ digits
    else
      let whole := first.toNat + 1
      let padded := digits ++ List.replicate (whole - digits.length) '0'
      let fraction := padded.drop whole
      padded.take whole ++ '.' :: (if fraction.isEmpty then ['0'] else fraction)
  else
    let mantissa := match digits with
      | d :: e :: rest => d :: '.' :: e :: rest
      | short => short
    let sign := if first < 0 then '-' else '+'
    mantissa ++ 'e' :: sign :: Nat.toDigits 10 first.natAbs

/-- The text of a number. -/
def text (x : Binary64) : List Char :=
  let sign := if x.negative then ['-'] else []
  if x.isZero then sign ++ ['0', '.', '0']
  else
    let decimal := x.shortest
    let digits := Nat.toDigits 10 decimal.digits
    sign ++ layout.write (dropTrailingZeros digits) (decimal.power + digits.length - 1)

end TaskWatch.Binary64
