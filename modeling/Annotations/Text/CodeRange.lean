/-!
# Character Classes as Code Point Ranges

A class of characters is a list of inclusive code point ranges, and a character
belongs to the class when one of the ranges holds it. The tables of the
neighbouring modules are all written this way, so that membership is one short
recursion and a fact about a whole class is a fact about a finite list.

## Main definitions

* `CodeRange`: An inclusive range of code points.
* `CodeRange.contains`: A character's code point lies in the range.
* `inRanges`: A character lies in one range of a list.
-/

namespace Annotations

namespace Text

/-- An inclusive range of code points. -/
structure CodeRange where
  first : Nat
  last : Nat
deriving DecidableEq, Repr

/-- The character's code point lies between the two ends. -/
def CodeRange.contains (r : CodeRange) (c : Char) : Bool :=
  r.first ≤ c.toNat && c.toNat ≤ r.last

/-- The character lies in one of the ranges. -/
def inRanges (ranges : List CodeRange) (c : Char) : Bool :=
  ranges.any (·.contains c)

end Text

end Annotations
