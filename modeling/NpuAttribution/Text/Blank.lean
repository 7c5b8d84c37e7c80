/-!
# `NpuAttribution.Text.Blank`: white space

Lists of device indices are trimmed and registry lines are told apart by white
space. Both use the Unicode property `White_Space`, which is wider than the four
ASCII blanks and differs from the format and zero-width characters: U+0085,
U+00A0 and U+3000 are blank, U+001C, U+200B and U+FEFF are not.
-/

set_option autoImplicit false

namespace NpuAttribution.Text

/-- The 25 characters with the Unicode property `White_Space`. -/
def isBlank (c : Char) : Bool :=
  let n := c.toNat
  -- The five control characters from tab to carriage return come first, then the rest
  -- in the order of their code points.
  (9 ≤ n && n ≤ 13) || n == 0x20 || n == 0x85 || n == 0xA0 || n == 0x1680
    || (0x2000 ≤ n && n ≤ 0x200A) || n == 0x2028 || n == 0x2029 || n == 0x202F
    || n == 0x205F || n == 0x3000

/-- Drops the blanks at the end of a text. -/
def trimEnd (cs : List Char) : List Char :=
  (cs.reverse.dropWhile isBlank).reverse

/-- Drops the blanks at both ends of a text. -/
def trim (cs : List Char) : List Char :=
  trimEnd (cs.dropWhile isBlank)

end NpuAttribution.Text
