/-!
# White space

The characters with the Unicode property `White_Space`.

## Main definitions

* `Text.isSpace` — membership in the property.
* `Text.skipSpace` — a text without the white space in front.
-/

namespace TaskWatch.Text

/-- The ranges of the property, first and last code point. -/
def spaceRanges : List (Nat × Nat) :=
  [(0x9, 0xD), (0x20, 0x20), (0x85, 0x85), (0xA0, 0xA0), (0x1680, 0x1680), (0x2000, 0x200A),
    (0x2028, 0x2029), (0x202F, 0x202F), (0x205F, 0x205F), (0x3000, 0x3000)]

/-- Whether a character is white space. -/
def isSpace (c : Char) : Bool :=
  spaceRanges.any fun (first, last) => first ≤ c.toNat && c.toNat ≤ last

/-- A text without the white space in front. -/
def skipSpace (text : List Char) : List Char := text.dropWhile isSpace

end TaskWatch.Text
