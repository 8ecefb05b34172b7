import Annotations.Number.Shortest

/-!
# Styles of Writing Doubles

All styles write the digits of the shortest decimal. They differ in how a tie
between two shortest decimals goes, in which range of exponents is written with
a plain decimal point, and in the sign of the exponents outside of that range. A
`FloatStyle` is these decisions.

A plainly written number has at least one digit on both sides of its point, so
it never looks like an integer. What is not finite has no digits; it has a word
instead, which a format may or may not make use of.

## Main definitions

* `FloatStyle`: The decisions of one style.
* `FloatStyle.write`: A finite double in a style.
* `Binary64.word?`: The word for a double that is not finite.
-/

namespace Annotations

namespace Number

/-- The decisions of one style of writing doubles. -/
structure FloatStyle where
  /-- Which of two equally near shortest decimals is written. -/
  tie : Tie
  /-- Leading digits below this power of ten call for an exponent. -/
  plainFrom : Option Int
  /-- Leading digits at or above this power of ten call for an exponent. -/
  plainBelow : Option Int
  /-- A positive exponent has a plus sign. -/
  plusSign : Bool
deriving DecidableEq, Repr

namespace FloatStyle

/-- The leading power of ten is in the range written with a plain point. -/
def isPlain (style : FloatStyle) (leading : Int) : Bool :=
  style.plainFrom.all (· ≤ leading) && style.plainBelow.all (leading < ·)

/-- A decimal with a plain point and a digit on both sides of it. -/
def writePlain (d : Decimal) : List Char :=
  let (whole, fraction) := d.plain
  whole ++ '.' :: (if fraction.isEmpty then ['0'] else fraction)

/-- A decimal with one digit before the point, and an exponent. The point is
    left out when no digit follows it. -/
def writeScientific (style : FloatStyle) (d : Decimal) : List Char :=
  let fraction := d.digits.drop 1
  let mark :=
    if d.leading < 0 then ['-'] else if style.plusSign then ['+'] else []
  d.digits.take 1 ++ (if fraction.isEmpty then [] else '.' :: fraction)
    ++ 'e' :: mark ++ Nat.toDigits 10 d.leading.natAbs

/-- A finite magnitude. -/
def writeMagnitude (style : FloatStyle) (code : Nat) : List Char :=
  if code = 0 then ['0', '.', '0']
  else
    let d := shortest style.tie code
    if style.isPlain d.leading then writePlain d else style.writeScientific d

/-- A finite double. -/
def write (style : FloatStyle) (x : Binary64) : List Char :=
  (if x.negative then ['-'] else []) ++ style.writeMagnitude x.code

end FloatStyle

/-- The word for a double that is not finite. -/
def Binary64.word? (x : Binary64) : Option (List Char) :=
  if x.isFinite then none
  else if x.isNaN then some ['N', 'a', 'N']
  else if x.negative then some ['-', 'i', 'n', 'f']
  else some ['i', 'n', 'f']

end Number

end Annotations
