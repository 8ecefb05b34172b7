import Annotations.Text.Quoted

/-!
# Outlines

A structural view of data: records with named fields, constructors applied to
arguments, lists, and atoms that are already text. An outline can be written on
one line, or spread out with one field, argument or item to a line.

The spread form indents by four spaces a level and ends each of its items with
a comma. Atoms never hold a line feed, since quoted text spells it, so no line
has to be indented after the fact.

## Main definitions

* `Outline`: The structural view of a piece of data.
* `Outline.compact`: The form on one line.
* `Outline.spread`: The form with an item to a line.
-/

namespace Annotations

mutual

/-- The structural view of a piece of data. -/
inductive Outline where
  /-- A leaf, already written. -/
  | atom (text : List Char)
  /-- A record with named fields. -/
  | record (name : List Char) (fields : List Outline.Field)
  /-- A constructor with its arguments. -/
  | variant (name : List Char) (arguments : List Outline)
  /-- A list of items. -/
  | list (items : List Outline)

/-- A named field of a record. -/
structure Outline.Field where
  name : List Char
  value : Outline

end

namespace Outline

/-- An atom of quoted text. -/
def quoted (text : String) : Outline :=
  .atom (Text.quoted text).toList

/-- An atom that is a whole number. -/
def natural (n : Nat) : Outline :=
  .atom (Nat.toDigits 10 n)

/-- What stands between neighbours on one line. -/
def separator : List Char :=
  [',', ' ']

mutual

/-- The form on one line. -/
def compact : Outline → List Char
  | .atom text => text
  | .record name fields =>
    name ++ " \x7b ".toList ++ separator.intercalate (compactFields fields) ++ " \x7d".toList
  | .variant name arguments =>
    name ++ '(' :: separator.intercalate (compactEach arguments) ++ [')']
  | .list items => '[' :: separator.intercalate (compactEach items) ++ [']']
termination_by structural o => o

/-- Each of a list of outlines on one line. -/
def compactEach : List Outline → List (List Char)
  | [] => []
  | o :: rest => o.compact :: compactEach rest
termination_by structural os => os

/-- Each of a list of fields on one line. -/
def compactFields : List Field → List (List Char)
  | [] => []
  | f :: rest => f.compactField :: compactFields rest
termination_by structural fs => fs

/-- A field on one line. -/
def Field.compactField : Field → List Char
  | ⟨name, value⟩ => name ++ ':' :: ' ' :: value.compact
termination_by structural f => f

end

/-- The start of a line at an indentation level. -/
def indentation (level : Nat) : List Char :=
  List.replicate (4 * level) ' '

mutual

/-- The form with an item to a line, of an outline that starts on a line of the
    given indentation level, and the text that comes after it. -/
def spread (level : Nat) : Outline → List Char → List Char
  | .atom text, after => text ++ after
  | .record name fields, after =>
    name ++ ' ' :: '{' :: '\n'
      :: spreadFields (level + 1) fields (indentation level ++ '}' :: after)
  | .variant name arguments, after =>
    name ++ '(' :: '\n' :: spreadEach (level + 1) arguments (indentation level ++ ')' :: after)
  | .list [], after => '[' :: ']' :: after
  | .list items, after =>
    '[' :: '\n' :: spreadEach (level + 1) items (indentation level ++ ']' :: after)
termination_by structural o => o

/-- Outlines on lines of their own, and the text that comes after them. -/
def spreadEach (level : Nat) : List Outline → List Char → List Char
  | [], after => after
  | o :: rest, after =>
    indentation level ++ o.spread level (',' :: '\n' :: spreadEach level rest after)
termination_by structural os => os

/-- Fields on lines of their own, and the text that comes after them. -/
def spreadFields (level : Nat) : List Field → List Char → List Char
  | [], after => after
  | f :: rest, after =>
    indentation level ++ f.spreadField level (',' :: '\n' :: spreadFields level rest after)
termination_by structural fs => fs

/-- A field whose value is spread, and the text that comes after it. -/
def Field.spreadField (level : Nat) : Field → List Char → List Char
  | ⟨name, value⟩, after => name ++ ':' :: ' ' :: value.spread level after
termination_by structural f => f

end

end Outline

end Annotations
