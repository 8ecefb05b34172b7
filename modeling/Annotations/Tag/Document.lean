import Annotations.Document
import Annotations.Tag.Canonical

/-!
# Tags as JSON

A value is an object with one member, whose key names the value's type; entries
are objects of a name and a value, and stand in lists so that order and repeated
names survive.

## Main definitions

* `documentFloat`: The style of floats.
* `Value.document`, `Entry.document`, `Tag.document`: The document of a tree.
* `Tag.json`: The text of that document.
-/

namespace Annotations

open Number

/-- Floats have a plain point from `10⁻⁵` up to `10¹⁶`, and outside of that range
    an exponent with its sign. -/
def documentFloat : FloatStyle where
  tie := .even
  plainFrom := some (-5)
  plainBelow := some 16
  plusSign := true

/-- A number document for an integer. -/
def integerDocument (n : Int64) : Document :=
  .number (integerText n)

/-- A number document for a float. JSON has no number for what is not finite. -/
def floatDocument (x : Binary64) : Document :=
  if x.isFinite then .number (documentFloat.write x) else .null

mutual

/-- What a value holds, without the name of its type. -/
def Value.content : Value → Document
  | .string s => .string s
  | .integer n => integerDocument n
  | .float x => floatDocument x
  | .bool b => .bool b
  | .strings ss => .array (ss.map .string)
  | .integers ns => .array (ns.map integerDocument)
  | .floats xs => .array (xs.map floatDocument)
  | .bools bs => .array (bs.map .bool)
  | .map entries => .array (entryDocuments entries)
termination_by structural v => v

/-- The documents of entries. -/
def entryDocuments : List Entry → List Document
  | [] => []
  | e :: es => e.document :: entryDocuments es
termination_by structural es => es

/-- The document of an entry. -/
def Entry.document : Entry → Document
  | ⟨name, value⟩ =>
    .object [⟨"name", .string name⟩, ⟨"value", .object [⟨value.kindName, value.content⟩]⟩]
termination_by structural e => e

end

/-- The document of a value, under the name of its type. -/
def Value.document (v : Value) : Document :=
  .object [⟨v.kindName, v.content⟩]

namespace Tag

/-- The document of a tag. -/
def document (t : Tag) : Document :=
  .object [⟨"identity", .string t.identity⟩, ⟨"attrs", .array (entryDocuments t.attrs)⟩]

/-- The document of a tag as text. -/
def json (t : Tag) : String :=
  String.ofList t.document.write

end Tag

end Annotations
