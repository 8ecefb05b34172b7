/-!
# Decimal Numbers

An unsigned decimal is a coefficient and a power of ten. Nothing is rounded
here: a decimal is the exact fraction `numerator / denominator`, and the two
sides of that fraction are natural numbers, so every later comparison of
decimals with binary numbers is a comparison of naturals.

Different pairs may name one number, as `10 · 10⁰` and `1 · 10¹` do. The
`trimmed` form has no zero at the end of its coefficient, which is the form
that is written out.

## Main definitions

* `Decimal`: A coefficient and a power of ten.
* `Decimal.numerator`, `Decimal.denominator`: The exact fraction.
* `Decimal.trimmed`: The same number without trailing zeros.
* `Decimal.digits`: The digits of the coefficient.
* `Decimal.plain`: Digits before and after the decimal point.
-/

namespace Annotations

namespace Number

/-- Within the theory of numbers, powers are those of the core library: `^`
    means the same there whatever else a module imports. -/
scoped instance (priority := 20000) corePower {α : Type} [NatPow α] : Pow α Nat :=
  instPowNat

/-- The number `coefficient · 10 ^ exponent`. -/
structure Decimal where
  coefficient : Nat
  exponent : Int
deriving DecidableEq, Repr

namespace Decimal

/-- The numerator of the exact fraction. -/
def numerator (d : Decimal) : Nat :=
  d.coefficient * 10 ^ d.exponent.toNat

/-- The denominator of the exact fraction, a power of ten. -/
def denominator (d : Decimal) : Nat :=
  10 ^ (-d.exponent).toNat

/-- The denominator is never zero. -/
theorem denominator_pos (d : Decimal) : 0 < d.denominator :=
  Nat.pow_pos (by decide)

/-- Moves trailing zeros of the coefficient into the exponent. -/
def trimFrom (coefficient : Nat) (exponent : Int) : Decimal :=
  if h : coefficient ≠ 0 ∧ coefficient % 10 = 0 then
    trimFrom (coefficient / 10) (exponent + 1)
  else
    ⟨coefficient, exponent⟩
termination_by coefficient
decreasing_by exact Nat.div_lt_self (Nat.pos_of_ne_zero h.1) (by decide)

/-- The same number with no zero at the end of its coefficient. -/
def trimmed (d : Decimal) : Decimal :=
  trimFrom d.coefficient d.exponent

/-- The digits of the coefficient, the leading one first. -/
def digits (d : Decimal) : List Char :=
  Nat.toDigits 10 d.coefficient

/-- The power of ten of the leading digit. -/
def leading (d : Decimal) : Int :=
  d.exponent + (d.digits.length - 1 : Nat)

/-- The digits before and after the decimal point. The whole part has at least
    one digit; the fraction is empty when the exponent is not negative. -/
def plain (d : Decimal) : List Char × List Char :=
  let places := (-d.exponent).toNat
  let padded :=
    List.replicate (places + 1 - d.digits.length) '0' ++ d.digits
      ++ List.replicate d.exponent.toNat '0'
  (padded.take (padded.length - places), padded.drop (padded.length - places))

end Decimal

end Number

end Annotations
