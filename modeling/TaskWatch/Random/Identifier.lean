import TaskWatch.Random.Generator

/-!
# Random identifiers

Sixteen random bytes, six bits of which say that they are random, are written as thirty-two
hexadecimal digits in five groups.

## Main definitions

* `Generator.identifier` — a random identifier.
-/

namespace TaskWatch

namespace Identifier

/-- The digit for a number below sixteen. -/
def digit (n : Nat) : Char := Nat.digitChar n

/-- The two digits of a byte. -/
def byteText (b : UInt8) : List Char := [digit (b.toNat / 16), digit (b.toNat % 16)]

/-- The bytes with the version number four and the variant marked. -/
def marked (bytes : List UInt8) : List UInt8 :=
  (bytes.modify 6 fun b => b &&& 0x0f ||| 0x40).modify 8 fun b => b &&& 0x3f ||| 0x80

/-- How many bytes stand in each group. -/
def groups : List Nat := [4, 2, 2, 2, 6]

/-- Bytes in groups of the given sizes, with a hyphen before each. -/
def grouped : List Nat → List UInt8 → List Char
  | [], _ => []
  | size :: sizes, bytes =>
    '-' :: (bytes.take size).flatMap byteText ++ grouped sizes (bytes.drop size)

/-- The text of sixteen bytes. -/
def text (bytes : List UInt8) : String := String.ofList ((grouped groups bytes).drop 1)

end Identifier

/-- A random identifier. -/
def Generator.identifier (g : Generator) : String × Generator :=
  let (bytes, g) := g.bytes 16
  (Identifier.text (Identifier.marked bytes), g)

end TaskWatch
