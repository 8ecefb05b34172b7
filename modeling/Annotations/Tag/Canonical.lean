import Annotations.Number.FloatStyle
import Annotations.Tag.Basic

/-!
# Canonical Text

The one text in which a tag is written back: no spaces but one after each
comma, strings verbatim between quotes, and a decimal point in every float so
that it is read as a float again.

Since strings are written verbatim, a string that holds a double quote is not
read back as itself. No parsed string does.

## Main definitions

* `canonicalFloat`: The style of floats.
* `Value.canonical`, `Entry.canonical`, `Tag.canonical`: The text of a tree.
-/

namespace Annotations

open Number

/-- Floats are written out in full, never with an exponent. -/
def canonicalFloat : FloatStyle where
  tie := .up
  plainFrom := none
  plainBelow := none
  plusSign := false

/-- The text of a float. A word gets the `.0` that a whole number would get. -/
def floatText (x : Binary64) : List Char :=
  match x.word? with
  | some word => word ++ ['.', '0']
  | none => canonicalFloat.write x

/-- The decimal text of an integer. -/
def integerText (n : Int64) : List Char :=
  (if n.toInt < 0 then ['-'] else []) ++ Nat.toDigits 10 n.toInt.natAbs

/-- The word for a truth value. -/
def boolText : Bool → List Char
  | true => ['t', 'r', 'u', 'e']
  | false => ['f', 'a', 'l', 's', 'e']

/-- A string between double quotes, with nothing escaped. -/
def verbatimText (s : String) : List Char :=
  '"' :: s.toList ++ ['"']

/-- Items with a comma and a space between neighbours. -/
def commaSeparated (items : List (List Char)) : List Char :=
  [',', ' '].intercalate items

/-- Items between brackets. -/
def bracketed (items : List (List Char)) : List Char :=
  '[' :: commaSeparated items ++ [']']

mutual

/-- The text of a value. -/
def Value.canonical : Value → List Char
  | .string s => verbatimText s
  | .integer n => integerText n
  | .float x => floatText x
  | .bool b => boolText b
  | .strings ss => bracketed (ss.map verbatimText)
  | .integers ns => bracketed (ns.map integerText)
  | .floats xs => bracketed (xs.map floatText)
  | .bools bs => bracketed (bs.map boolText)
  | .map entries => '{' :: commaSeparated (canonicalEach entries) ++ ['}']
termination_by structural v => v

/-- The texts of entries. -/
def canonicalEach : List Entry → List (List Char)
  | [] => []
  | e :: es => e.canonical :: canonicalEach es
termination_by structural es => es

/-- The text of an entry. -/
def Entry.canonical : Entry → List Char
  | ⟨name, value⟩ => name.toList ++ '=' :: value.canonical
termination_by structural e => e

end

namespace Tag

/-- The text of the entries of a tag; the parentheses go with the entries. -/
def attrsText (attrs : List Entry) : List Char :=
  if attrs.isEmpty then [] else '(' :: commaSeparated (canonicalEach attrs) ++ [')']

/-- The characters of a tag. -/
def canonical (t : Tag) : List Char :=
  ['#', '['] ++ t.identity.toList ++ attrsText t.attrs ++ [']']

/-- The text of a tag. -/
def text (t : Tag) : String :=
  String.ofList t.canonical

end Tag

end Annotations
