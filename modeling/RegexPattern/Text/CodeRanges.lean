/-!
Tables of code points, for the properties that the Unicode standard lists. A surrogate inside a
range has no effect: no character has its code point.
-/

namespace RegexPattern.Text

/-- Ranges of code points, both ends included. -/
abbrev CodeRanges := List (Nat × Nat)

def CodeRanges.covers (ranges : CodeRanges) (c : Char) : Bool :=
  ranges.any fun (first, last) => first ≤ c.toNat && c.toNat ≤ last

end RegexPattern.Text
