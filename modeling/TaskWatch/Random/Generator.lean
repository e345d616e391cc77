import TaskWatch.Random.ChaCha

/-!
# Random draws

A generator is a key and a position in its stream of 32-bit words. A seed is stretched to a key by
a congruential sequence whose states are scrambled on their way out. Every draw takes as many words
as it needs and leaves a generator behind that goes on after them.

## Main definitions

* `Generator.ofSeed` — the generator of a seed.
* `Generator.word`, `Generator.wide`, `Generator.bytes` — 32 bits, 64 bits, and bytes.
* `Generator.chance` — true with a probability.
* `Generator.below` — a number below a bound, nearly without bias.
-/

namespace TaskWatch

/-- A source of random words. -/
structure Generator where
  /-- The key of the stream. -/
  key : ChaCha.Key
  /-- How many words have been taken. -/
  position : Nat := 0

namespace Generator

/-- The state after a state of the seeding sequence. -/
def nextSeedState (state : UInt64) : UInt64 := state * 6364136223846793005 + 11634580027462260723

/-- The word that a state of the seeding sequence yields: its upper bits folded together and
rotated to the right by the topmost ones. -/
def seedWord (state : UInt64) : UInt32 :=
  let folded := (((state >>> 18) ^^^ state) >>> 27).toUInt32
  let turn := (state >>> 59).toUInt32
  (folded >>> turn) ||| (folded <<< ((32 - turn) % 32))

/-- The state of the seeding sequence after so many steps. -/
def seedState (seed : UInt64) (steps : Nat) : UInt64 := steps.repeat nextSeedState seed

/-- The generator of a seed. -/
def ofSeed (seed : UInt64) : Generator :=
  { key := ⟨.ofFn fun i => seedWord (seedState seed (i.val + 1))⟩ }

/-- The next 32 bits. -/
def word (g : Generator) : UInt32 × Generator :=
  (ChaCha.word g.key g.position, { g with position := g.position + 1 })

/-- The next 64 bits, the lower half first. -/
def wide (g : Generator) : UInt64 × Generator :=
  let (low, g) := g.word
  let (high, g) := g.word
  (low.toUInt64 ||| (high.toUInt64 <<< 32), g)

/-- Bytes, each the lowest one of a word. -/
def bytes (g : Generator) : (count : Nat) → List UInt8 × Generator
  | 0 => ([], g)
  | count + 1 =>
    let (first, g) := g.word
    let (rest, g) := g.bytes count
    (first.toUInt8 :: rest, g)

/-- True with the probability `threshold / 2 ^ 64`. -/
def chance (g : Generator) (threshold : Nat) : Bool × Generator :=
  let (draw, g) := g.wide
  (draw.toNat < threshold, g)

/-- A number below a positive bound: the upper half of a word's product with the bound. When the
lower half is so large that the words do not divide evenly among the numbers, a second word decides
whether it carries over. -/
def below (g : Generator) (bound : Nat) : Nat × Generator :=
  let (first, g) := g.word
  let product := first.toNat * bound
  let high := product / 4294967296
  let low := product % 4294967296
  if 4294967296 - bound < low then
    let (second, g) := g.word
    let carry := (low + second.toNat * bound / 4294967296) / 4294967296
    (high + carry, g)
  else (high, g)

/-- A number between two limits, both included. -/
def between (g : Generator) (least greatest : Nat) : Nat × Generator :=
  let (n, g) := g.below (greatest - least + 1)
  (least + n, g)

end Generator

end TaskWatch
