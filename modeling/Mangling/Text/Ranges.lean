/-! Sets of characters given as ranges of code points. -/

namespace Mangling

/-- A set of characters, as ranges of code points with both ends included. -/
abbrev CharRanges := List (Nat × Nat)

/-- A character is in the set when one of the ranges holds its code point. -/
def CharRanges.has (ranges : CharRanges) (char : Char) : Bool :=
  -- The ranges are few enough to be tried in turn.
  ranges.any fun range => range.1 ≤ char.toNat && char.toNat ≤ range.2

end Mangling
