/-!
# `ControlStore.Text.Blank`: blank characters

The blank characters are those of the Unicode property `White_Space`. A field is read without the
blank characters at its two ends, and a line of blank characters alone holds no row.
-/

set_option autoImplicit false

namespace ControlStore.Text

/-- Whether the code point of a character lies in one of some ranges, given by the first and the
last of each. -/
def inRanges (ranges : List (Nat × Nat)) (c : Char) : Bool :=
  ranges.any fun (first, last) => first ≤ c.toNat && c.toNat ≤ last

/-- The ranges of code points with the property `White_Space`, first and last of each, in
ascending order. -/
def blankRanges : List (Nat × Nat) :=
  [(0x0009, 0x000D), (0x0020, 0x0020), (0x0085, 0x0085), (0x00A0, 0x00A0), (0x1680, 0x1680),
   (0x2000, 0x200A), (0x2028, 0x2029), (0x202F, 0x202F), (0x205F, 0x205F), (0x3000, 0x3000)]

/-- A blank character lies in one of the `White_Space` ranges. -/
def isBlank (c : Char) : Bool :=
  inRanges blankRanges c

/-- The text without the characters of the class `p` at its end. -/
def dropTrailing (p : Char → Bool) (s : List Char) : List Char :=
  (s.reverse.dropWhile p).reverse

/-- The text without the blank characters at its two ends. -/
def trim (s : List Char) : List Char :=
  dropTrailing isBlank (s.dropWhile isBlank)

end ControlStore.Text
