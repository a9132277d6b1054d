/-!
# Ranges of code points

A character property is given by an ordered list of ranges of code points, each by its first code
point and its length. The tables of this library only list code points from `0x80` on; what holds
below that is written out where the property is defined, so that plain text never reaches a table.
-/

set_option autoImplicit false

namespace Custody.Text

/-- Whether the code point `n` lies in one of the ranges. -/
def inRanges (ranges : List (Nat × Nat)) (n : Nat) : Bool :=
  ranges.any fun r => r.1 ≤ n && n < r.1 + r.2

/-- Membership in ranges, for characters outside the first 128 code points. -/
def beyondAscii (ranges : List (Nat × Nat)) (c : Char) : Bool :=
  0x80 ≤ c.toNat && inRanges ranges c.toNat

end Custody.Text
