import Annotations.Fault
import Annotations.Text.Blank
import Annotations.Text.Line

/-!
# Diagnostics

A fault shown with the line of the source that it is about:

```text
Error: TrailingInput (Unexpected `abc` after the closing `]`, ...)
-> <input>
  |
1 | #[ident] abc
  | ---------^
```

The spaces that the line starts with are left out, and so is white space at its
end. The caret stands below the character at the fault's offset: as many dashes
precede it as characters that are shown precede that character.

The caret is padded to its column with dashes, and padding has a limit. Beyond
it there is no diagnostic: whoever asks for one breaks down. `Fault.render` is
the diagnostic as it is laid out, and `Fault.render?` tells where it can be had.

## Main definitions

* `Diagnostic.heading`: The name of the cause, with a tip if it has one.
* `Diagnostic.excerpt`: The line, behind its number.
* `Diagnostic.pointer`: The caret below the line.
* `Diagnostic.maxWidth`: The limit of padding.
* `Fault.render`: All of the diagnostic.
* `Fault.render?`: The diagnostic, if its caret can be padded.
-/

namespace Annotations

open Text

namespace Diagnostic

/-- The name of the cause, with a tip if it has one. -/
def heading (cause : Fault.Cause) : List Char :=
  "Error: ".toList ++ cause.name.toList ++
    match cause.tip? with
    | none => []
    | some tip => " (".toList ++ tip.toList ++ [')']

/-- The bar that divides line numbers from lines, below a line number. -/
def bar (number : Nat) : List Char :=
  List.replicate ((Nat.toDigits 10 number).length + 1) ' ' ++ ['|']

/-- How many spaces a line starts with. -/
def indent (line : List Char) : Nat :=
  (line.takeWhile (· = ' ')).length

/-- The line as it is shown. -/
def shown (line : List Char) : List Char :=
  trimEnd (line.dropWhile (· = ' '))

/-- The line, behind its number. -/
def excerpt (place : Location) : List Char :=
  Nat.toDigits 10 place.number ++ [' ', '|', ' '] ++ shown place.text

/-- The caret below the line. -/
def pointer (place : Location) : List Char :=
  bar place.number ++ ' ' :: List.replicate (place.column - indent place.text) '-' ++ ['^']

/-- How wide the caret is with the dashes in front of it. -/
def caretWidth (place : Location) : Nat :=
  place.column - indent place.text + 1

/-- The greatest width that a text can be padded to. -/
def maxWidth : Nat :=
  65535

end Diagnostic

/-- A fault shown with the line of the source that it is about. -/
def Fault.render (f : Fault) (source : String) : String :=
  let found := locate source.toList f.position.offset.toNat
  String.ofList <| ['\n'].intercalate
    [Diagnostic.heading f.cause, "-> ".toList ++ f.position.label.toList,
      Diagnostic.bar found.number, Diagnostic.excerpt found, Diagnostic.pointer found]

/-- The caret of the diagnostic can be padded. -/
def Fault.fits (f : Fault) (source : String) : Bool :=
  Diagnostic.caretWidth (locate source.toList f.position.offset.toNat) ≤ Diagnostic.maxWidth

/-- The diagnostic of a fault. There is none if its caret cannot be padded. -/
def Fault.render? (f : Fault) (source : String) : Option String :=
  if f.fits source then some (f.render source) else none

/-- A caret can be padded to each column below the limit, and the indentation that is
    left out only brings it nearer. -/
theorem Fault.fits_of_column_lt {f : Fault} {source : String}
    (h : (locate source.toList f.position.offset.toNat).column < Diagnostic.maxWidth) :
    f.fits source = true := by
  rw [fits, Diagnostic.caretWidth, decide_eq_true_eq]
  omega

theorem Fault.render?_of_fits {f : Fault} {source : String} (h : f.fits source = true) :
    f.render? source = some (f.render source) := by
  rw [render?, if_pos h]

theorem Fault.render?_of_not_fits {f : Fault} {source : String} (h : f.fits source = false) :
    f.render? source = none := by
  rw [render?, h]
  rfl

end Annotations
