import Annotations.Outline
import Annotations.Tag.Canonical

/-!
# Outlines of Tags

The structural view of a tree: tags and entries are records, values are their
type's constructor applied to what they hold.

## Main definitions

* `outlineFloat`: The style of floats.
* `Value.outline`, `Entry.outline`, `Tag.outline`: The outline of a tree.
* `Tag.compactOutline`, `Tag.spreadOutline`: Its two texts.
-/

namespace Annotations

open Number

/-- Floats have a plain point from `10⁻⁴` up to `10¹⁶`, and outside of that range
    an exponent with a sign only if it is negative. -/
def outlineFloat : FloatStyle where
  tie := .up
  plainFrom := some (-4)
  plainBelow := some 16
  plusSign := false

/-- An atom for an integer. -/
def integerOutline (n : Int64) : Outline :=
  .atom (integerText n)

/-- An atom for a float, its word if it is not finite. -/
def floatOutline (x : Binary64) : Outline :=
  .atom (x.word?.getD (outlineFloat.write x))

/-- An atom for a truth value. -/
def boolOutline (b : Bool) : Outline :=
  .atom (boolText b)

mutual

/-- The outline of what a value holds, without its constructor. -/
def Value.contentOutline : Value → Outline
  | .string s => .quoted s
  | .integer n => integerOutline n
  | .float x => floatOutline x
  | .bool b => boolOutline b
  | .strings ss => .list (ss.map .quoted)
  | .integers ns => .list (ns.map integerOutline)
  | .floats xs => .list (xs.map floatOutline)
  | .bools bs => .list (bs.map boolOutline)
  | .map entries => .list (entryOutlines entries)
termination_by structural v => v

/-- The outlines of entries. -/
def entryOutlines : List Entry → List Outline
  | [] => []
  | e :: es => e.outline :: entryOutlines es
termination_by structural es => es

/-- The outline of an entry. -/
def Entry.outline : Entry → Outline
  | ⟨name, value⟩ =>
    .record "NameValue".toList
      [⟨"name".toList, .quoted name⟩,
        ⟨"value".toList, .variant value.kindName.toList [value.contentOutline]⟩]
termination_by structural e => e

end

namespace Tag

/-- The outline of a tag. -/
def outline (t : Tag) : Outline :=
  .record "Derive".toList
    [⟨"identity".toList, .quoted t.identity⟩, ⟨"attrs".toList, .list (entryOutlines t.attrs)⟩]

/-- The outline of a tag on one line. -/
def compactOutline (t : Tag) : String :=
  String.ofList t.outline.compact

/-- The outline of a tag with an item to a line. -/
def spreadOutline (t : Tag) : String :=
  String.ofList (t.outline.spread 0 [])

end Tag

end Annotations
