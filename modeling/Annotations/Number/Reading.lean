import Annotations.Number.Binary64

/-!
# Reading Numbers

The three forms of number text: integers that fit in 64 bits with a sign,
naturals that fit in 64 bits, and doubles. All of them are written in ASCII
digits; none allows white space or separators between digits.

The text of a double is an optional sign followed by digits, with a point
somewhere among or beside them, and an optional exponent; or by one of the words
`inf`, `infinity` and `nan` in any case. The number so written is rounded to the
nearest double. An exponent stops growing at the first digit that takes it to
65536 or beyond: a number of reasonable length is then infinite or zero
whatever digits follow.

## Main definitions

* `readDigits?`: A run of one or more digits.
* `readInteger?`: A signed integer of 64 bits.
* `readNatural?`: An unsigned integer of 64 bits.
* `readDecimal?`: Digits with an optional point and exponent.
* `readBinary64?`: The text of a double.
-/

namespace Annotations

namespace Number

/-- Splits off a sign; the flag tells a minus sign. -/
def splitSign : List Char → Bool × List Char
  | '-' :: cs => (true, cs)
  | '+' :: cs => (false, cs)
  | cs => (false, cs)

/-- The natural number that a run of one or more digits writes. -/
def readDigits? (cs : List Char) : Option Nat :=
  if !cs.isEmpty && cs.all Char.isDigit then some (Nat.ofDigitChars 10 cs 0) else none

/-- A signed integer, if it fits in 64 bits. -/
def readInteger? (cs : List Char) : Option Int64 := do
  let (negative, digits) := splitSign cs
  let magnitude ← readDigits? digits
  let n : Int := if negative then -magnitude else magnitude
  if -2 ^ (63 : Nat) ≤ n ∧ n < 2 ^ (63 : Nat) then some (Int64.ofInt n) else none

/-- An unsigned integer with an optional plus sign, if it fits in 64 bits. -/
def readNatural? (cs : List Char) : Option Nat := do
  let digits := match cs with
    | '+' :: rest => rest
    | _ => cs
  let n ← readDigits? digits
  if n < 2 ^ (64 : Nat) then some n else none

/-- The value of an exponent's digits, which stops growing at 65536. -/
def exponentValue (digits : List Char) : Nat :=
  digits.foldl (fun n c => if n < 65536 then 10 * n + (c.toNat - '0'.toNat) else n) 0

/-- What follows the exponent mark: an optional sign and one or more digits. -/
def readExponent? (cs : List Char) : Option Int :=
  let (negative, digits) := splitSign cs
  if !digits.isEmpty && digits.all Char.isDigit then
    some (if negative then -(exponentValue digits : Int) else exponentValue digits)
  else none

/-- Digits with an optional point, at least one digit in all, and an optional
    exponent. -/
def readDecimal? (cs : List Char) : Option Decimal := do
  let whole := cs.takeWhile Char.isDigit
  let (fraction, rest) := match cs.dropWhile Char.isDigit with
    | '.' :: more => (more.takeWhile Char.isDigit, more.dropWhile Char.isDigit)
    | other => ([], other)
  if whole.isEmpty && fraction.isEmpty then none
  else
    let exponent ← match rest with
      | [] => some 0
      | c :: more => if c = 'e' ∨ c = 'E' then readExponent? more else none
    some ⟨Nat.ofDigitChars 10 (whole ++ fraction) 0, exponent - fraction.length⟩

/-- The double that a text names. -/
def readBinary64? (cs : List Char) : Option Binary64 :=
  let (negative, body) := splitSign cs
  let word := body.map Char.toLower
  if word = ['n', 'a', 'n'] then some (.nan negative)
  else if word = ['i', 'n', 'f'] ∨ word = ['i', 'n', 'f', 'i', 'n', 'i', 't', 'y'] then
    some (.infinity negative)
  else (readDecimal? body).map (.ofDecimal negative)

end Number

end Annotations
