import Annotations.Number.Binary64

/-!
# Tags

The tree of an annotation `#[identity(name=value, …)]`. A tag has an identity
and a list of entries; an entry's value is a scalar, a list of scalars of one
type, or a map of further entries.

Entries keep the order in which they were written, and names may repeat. Looking
a name up finds its first entry.

## Main definitions

* `Value`, `Entry`, `Tag`: The parts of a tree.
* `Value.kindName`: The name of a value's type.
* `Tag.get?`, `Value.get?`: The value of a name.
* `Tag.withAttr`: A tag with one more entry at its end.
* `Tag.agrees`: Equality of trees in which floats are compared as numbers.
-/

namespace Annotations

open Number

mutual

/-- The value of an entry. -/
inductive Value where
  | string (s : String)
  | integer (n : Int64)
  | float (x : Binary64)
  | bool (b : Bool)
  | strings (ss : List String)
  | integers (ns : List Int64)
  | floats (xs : List Binary64)
  | bools (bs : List Bool)
  | map (entries : List Entry)

/-- A named value. -/
structure Entry where
  name : String
  value : Value

end

/-- An annotation: its identity and its entries, none if it has no parentheses. -/
structure Tag where
  identity : String
  attrs : List Entry

/-- The value of the first entry with this name. -/
def Entry.lookup? (entries : List Entry) (name : String) : Option Value :=
  (entries.find? (·.name == name)).map Entry.value

namespace Value

/-- The name of a value's type. -/
def kindName : Value → String
  | string _ => "String"
  | integer _ => "Integer"
  | float _ => "Float"
  | bool _ => "Bool"
  | strings _ => "StringList"
  | integers _ => "IntegerList"
  | floats _ => "FloatList"
  | bools _ => "BoolList"
  | map _ => "Map"

/-- The value of a name in a map. Other values have no names in them. -/
def get? : Value → String → Option Value
  | map entries, name => Entry.lookup? entries name
  | _, _ => none

end Value

/-- Lists of floats of one length that agree number by number. -/
def floatsAgree (xs ys : List Binary64) : Bool :=
  xs.length == ys.length && (xs.zip ys).all fun (x, y) => x.agrees y

mutual

/-- Equality of values in which floats are compared as numbers, so that the two
    zeros agree and what is not a number agrees with nothing. -/
def Value.agrees : Value → Value → Bool
  | .string s, .string t => s == t
  | .integer m, .integer n => m == n
  | .float x, .float y => x.agrees y
  | .bool a, .bool b => a == b
  | .strings ss, .strings ts => ss == ts
  | .integers ms, .integers ns => ms == ns
  | .floats xs, .floats ys => floatsAgree xs ys
  | .bools as, .bools bs => as == bs
  | .map es, .map fs => entriesAgree es fs
  | _, _ => false
termination_by structural v => v

/-- Agreement of entries in order. -/
def entriesAgree : List Entry → List Entry → Bool
  | [], [] => true
  | e :: es, f :: fs => e.agrees f && entriesAgree es fs
  | _, _ => false
termination_by structural es => es

/-- Agreement of two entries: one name, and values that agree. -/
def Entry.agrees : Entry → Entry → Bool
  | ⟨name, value⟩, f => name == f.name && value.agrees f.value
termination_by structural e => e

end

namespace Tag

/-- A tag with one more entry at its end. -/
def withAttr (t : Tag) (name : String) (value : Value) : Tag :=
  { t with attrs := t.attrs ++ [⟨name, value⟩] }

/-- The value of the first entry with this name. -/
def get? (t : Tag) (name : String) : Option Value :=
  Entry.lookup? t.attrs name

/-- Equality of trees in which floats are compared as numbers. -/
def agrees (t u : Tag) : Bool :=
  t.identity == u.identity && entriesAgree t.attrs u.attrs

end Tag

end Annotations
