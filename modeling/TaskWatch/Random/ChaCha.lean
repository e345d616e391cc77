/-!
# The ChaCha stream

A block function over sixteen 32-bit words: constants, eight words of key, a block counter of two
words and two words that are zero here. A block is mixed by rounds of additions, exclusive ors and
rotations and added to what it was before. The words of the blocks with the counters 0, 1, 2, … make
one stream.

## Main definitions

* `ChaCha.Key` — the key.
* `ChaCha.block` — the words of one block.
* `ChaCha.word` — a word of the stream by its position.
-/

namespace TaskWatch

namespace ChaCha

/-- Eight words of key. -/
structure Key where
  /-- The words. -/
  words : Vector UInt32 8
deriving DecidableEq, Repr

/-- The sixteen words that are mixed. -/
abbrev State : Type := Vector UInt32 16

/-- Rotate a word to the left. -/
def rotateLeft (x : UInt32) (n : UInt32) : UInt32 := (x <<< n) ||| (x >>> (32 - n))

/-- Mix four words of a state. -/
def quarterRound (s : State) (a b c d : Fin 16) : State :=
  let s := s.set a (s[a] + s[b])
  let s := s.set d (rotateLeft (s[d] ^^^ s[a]) 16)
  let s := s.set c (s[c] + s[d])
  let s := s.set b (rotateLeft (s[b] ^^^ s[c]) 12)
  let s := s.set a (s[a] + s[b])
  let s := s.set d (rotateLeft (s[d] ^^^ s[a]) 8)
  let s := s.set c (s[c] + s[d])
  s.set b (rotateLeft (s[b] ^^^ s[c]) 7)

/-- Mix all columns and then all diagonals. -/
def doubleRound (s : State) : State :=
  let s := quarterRound s 0 4 8 12
  let s := quarterRound s 1 5 9 13
  let s := quarterRound s 2 6 10 14
  let s := quarterRound s 3 7 11 15
  let s := quarterRound s 0 5 10 15
  let s := quarterRound s 1 6 11 12
  let s := quarterRound s 2 7 8 13
  quarterRound s 3 4 9 14

/-- The number of double rounds that a block is mixed by. -/
def doubleRounds : Nat := 6

/-- The constants at the head of a state. -/
def constants : Vector UInt32 4 := #v[0x61707865, 0x3320646e, 0x79622d32, 0x6b206574]

/-- The state of a block before it is mixed. -/
def initial (key : Key) (counter : UInt64) : State :=
  constants ++ key.words ++ #v[counter.toUInt32, (counter >>> 32).toUInt32, 0, 0]

/-- The words of the block with a counter. -/
def block (key : Key) (counter : UInt64) : State :=
  let start := initial key counter
  let mixed := doubleRounds.repeat doubleRound start
  start.zipWith (· + ·) mixed

/-- The word of the stream at a position. -/
def word (key : Key) (position : Nat) : UInt32 :=
  (block key (UInt64.ofNat (position / 16))).get ⟨position % 16, Nat.mod_lt _ (by decide)⟩

end ChaCha

end TaskWatch
