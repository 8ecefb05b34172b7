import Annotations.Source.Position
import Annotations.Text.Bytes

/-!
# Source Cursors

A byte offset that walks over a labelled text. It may be moved by any number of
bytes, past the end of the text or into the middle of a character; what is left
of the text can only be told where a character starts, or at the very end.

## Main definitions

* `Cursor`: An offset into a labelled text.
* `Cursor.remainder?`: The text from the cursor on.
* `Cursor.character?`: The character under the cursor.
* `Cursor.position`, `Cursor.span`: The cursor's place as a position or a span.
-/

namespace Annotations

namespace Source

/-- A byte offset into a labelled text. -/
structure Cursor where
  text : List Char
  label : String
  offset : Nat := 0
deriving DecidableEq, Repr

namespace Cursor

/-- Moves the cursor forward by a number of bytes. -/
def advance (c : Cursor) (bytes : Nat) : Cursor :=
  { c with offset := c.offset + bytes }

/-- No text is left. -/
def atEnd (c : Cursor) : Bool :=
  Text.byteLength c.text ≤ c.offset

/-- The text from the cursor on, unless the cursor is past the end or inside a
    character. -/
def remainder? (c : Cursor) : Option (List Char) :=
  Text.dropBytes? c.offset c.text

/-- The character under the cursor, `some none` at the end of the text. -/
def character? (c : Cursor) : Option (Option Char) :=
  c.remainder?.map List.head?

/-- The cursor's position. -/
def position (c : Cursor) : Position :=
  .ofOffset c.label c.offset

/-- The span of a number of bytes from the cursor on. -/
def span (c : Cursor) (length : Nat) : Span :=
  .ofLength c.label c.offset length

end Cursor

end Source

end Annotations
