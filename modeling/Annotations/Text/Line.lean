import Annotations.Text.Bytes

/-!
# Lines of a Text

A line runs up to and including its line feed; the last one may lack it. Two
things are asked of lines: the contents of each, without terminator, and which
line holds a given byte offset.

An offset at or past the end of the text belongs to no line. It is placed after
the last character of the last line, which is empty if the text ends in a line
feed.

## Main definitions

* `linesWithEnds`: The lines of a text, terminators included.
* `lineContents`: The lines of a text, terminators removed.
* `Location`: A line number, the text of that line, and a column.
* `locate`: The location of a byte offset.

## Theorems

* `flatten_linesWithEnds`: The lines join to the whole text.
-/

namespace Annotations

namespace Text

/-- Lines including their line feeds. -/
def linesWithEnds : List Char → List (List Char)
  | [] => []
  | c :: cs =>
    if c = '\n' then [c] :: linesWithEnds cs
    else match linesWithEnds cs with
      | [] => [[c]]
      | line :: lines => (c :: line) :: lines

/-- The lines join to the whole text. -/
theorem flatten_linesWithEnds (cs : List Char) : (linesWithEnds cs).flatten = cs := by
  induction cs with
  | nil => rfl
  | cons c cs ih =>
      by_cases hc : c = '\n'
      · simp only [linesWithEnds, hc, if_pos, List.flatten_cons, ih, List.cons_append,
          List.nil_append]
      · rw [linesWithEnds, if_neg hc]
        cases h : linesWithEnds cs with
        | nil => simpa [h] using ih
        | cons line lines => simpa [h] using ih

/-- A line without its line feed and one carriage return before that. A line
    without line feed keeps its carriage return. -/
def withoutEnd (line : List Char) : List Char :=
  match line.reverse with
  | '\n' :: '\r' :: rest => rest.reverse
  | '\n' :: rest => rest.reverse
  | _ => line

/-- The contents of the lines. -/
def lineContents (cs : List Char) : List (List Char) :=
  (linesWithEnds cs).map withoutEnd

/-- Where an offset falls: the number of its line counted from one, the text of
    that line, and how many of its characters start before the offset. -/
structure Location where
  number : Nat
  text : List Char
  column : Nat
deriving DecidableEq, Repr

/-- The first of the lines, numbered from `number`, that holds the offset. -/
def locateIn (number offset : Nat) : List (List Char) → Option Location
  | [] => none
  | line :: lines =>
    if offset < byteLength line then some ⟨number, line, charsBefore offset line⟩
    else locateIn (number + 1) (offset - byteLength line) lines

/-- The place after the last character. -/
def endLocation (cs : List Char) : Location :=
  let last := (cs.reverse.takeWhile (· ≠ '\n')).reverse
  ⟨cs.count '\n' + 1, last, last.length⟩

/-- The location of a byte offset; offsets past the end count as the end. -/
def locate (cs : List Char) (offset : Nat) : Location :=
  (locateIn 1 offset (linesWithEnds cs)).getD (endLocation cs)

end Text

end Annotations
