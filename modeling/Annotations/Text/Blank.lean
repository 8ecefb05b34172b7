import Annotations.Text.CodeRange

/-!
# White Space

The characters with the White_Space property. They separate tokens, and they
are what trimming removes. Note that the zero-width space U+200B is not among
them.

## Main definitions

* `blankRanges`: The ranges, in increasing order.
* `isBlank`: Membership.
* `trimEnd`, `trim`: Characters with the white space at one or both ends removed.
-/

namespace Annotations

namespace Text

/-- Code points with the White_Space property. -/
def blankRanges : List CodeRange :=
  [⟨0x0009, 0x000D⟩, ⟨0x0020, 0x0020⟩, ⟨0x0085, 0x0085⟩, ⟨0x00A0, 0x00A0⟩, ⟨0x1680, 0x1680⟩,
   ⟨0x2000, 0x200A⟩, ⟨0x2028, 0x2029⟩, ⟨0x202F, 0x202F⟩, ⟨0x205F, 0x205F⟩, ⟨0x3000, 0x3000⟩]

/-- A white space character. -/
def isBlank (c : Char) : Bool :=
  inRanges blankRanges c

/-- The characters up to the last one that is not white space. -/
def trimEnd (cs : List Char) : List Char :=
  (cs.reverse.dropWhile isBlank).reverse

/-- The characters from the first to the last that is not white space. -/
def trim (cs : List Char) : List Char :=
  trimEnd (cs.dropWhile isBlank)

end Text

end Annotations
