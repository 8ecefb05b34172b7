/-!
# Byte Lengths

Offsets into a source count the bytes of its UTF-8 form, while the scanner and
the printers work on characters. This module is the bridge: how many bytes
characters take, and which characters are left after a number of bytes.

## Main definitions

* `byteLength`: The bytes that characters take.
* `dropBytes?`: The characters after a number of bytes.
* `charsBefore`: How many characters start before a byte offset.

## Theorems

* `byteLength_append`: Lengths of joined texts add up.
-/

namespace Annotations

namespace Text

/-- The number of bytes in the UTF-8 form of the characters. -/
def byteLength : List Char → Nat
  | [] => 0
  | c :: cs => c.utf8Size + byteLength cs

@[simp]
theorem byteLength_nil : byteLength [] = 0 := rfl

@[simp]
theorem byteLength_cons (c : Char) (cs : List Char) :
    byteLength (c :: cs) = c.utf8Size + byteLength cs := rfl

/-- Lengths of joined texts add up. -/
@[simp]
theorem byteLength_append (a b : List Char) :
    byteLength (a ++ b) = byteLength a + byteLength b := by
  induction a with
  | nil => rw [List.nil_append, byteLength_nil, Nat.zero_add]
  | cons c a ih => rw [List.cons_append, byteLength_cons, ih, byteLength_cons, Nat.add_assoc]

theorem byteLength_replicate (n : Nat) (c : Char) :
    byteLength (List.replicate n c) = n * c.utf8Size := by
  induction n with
  | zero => rw [Nat.zero_mul, List.replicate_zero, byteLength_nil]
  | succ n ih =>
      rw [List.replicate_succ, byteLength_cons, ih, Nat.succ_mul, Nat.add_comm]

/-- The characters after the first `n` bytes. There are none to give when the
    text is shorter, or when the cut would fall inside a character. -/
def dropBytes? : Nat → List Char → Option (List Char)
  | 0, cs => some cs
  | _ + 1, [] => none
  | n + 1, c :: cs =>
    if c.utf8Size ≤ n + 1 then dropBytes? (n + 1 - c.utf8Size) cs else none

/-- How many characters start before the byte offset. A character that the
    offset cuts in two counts, since its first byte is before the cut. -/
def charsBefore : Nat → List Char → Nat
  | 0, _ => 0
  | _ + 1, [] => 0
  | n + 1, c :: cs => charsBefore (n + 1 - c.utf8Size) cs + 1

end Text

end Annotations
