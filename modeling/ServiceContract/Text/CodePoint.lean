/-!
# Ranges of code points

A property of characters is given by the code points that have it, as a list of closed ranges in
ascending order. Below 128 the properties of this library are given by core's own tests on
characters, so that only the ranges from 128 on are listed.

## Main definitions

* `CodePointRanges`: a list of closed ranges.
* `CodePointRanges.has`: whether the code point of a character lies in one of them.
-/

namespace ServiceContract.Text

/-- Closed ranges of code points, in ascending order. -/
abbrev CodePointRanges : Type := List (Nat × Nat)

/-- Whether the code point of `c` lies in one of the ranges. -/
def CodePointRanges.has (ranges : CodePointRanges) (c : Char) : Bool :=
  ranges.any fun range => decide (range.1 ≤ c.toNat) && decide (c.toNat ≤ range.2)

end ServiceContract.Text
