import Lexing.Unicode.RangeTree

/-!
# White space

The code points with the White_Space property, which are the same in Unicode 16.0 and 17.0.
-/

namespace Lexing.Unicode

/-- Code points with the White_Space property. -/
def blanks : RangeTree :=
  .ofRanges [
    (0x9, 0xD), (0x20, 0x20), (0x85, 0x85), (0xA0, 0xA0), (0x1680, 0x1680), (0x2000, 0x200A),
    (0x2028, 0x2029), (0x202F, 0x202F), (0x205F, 0x205F), (0x3000, 0x3000)]

/-- Whether a code point is white space. -/
def isBlank (c : Char) : Bool :=
  blanks.contains c.toNat

end Lexing.Unicode
