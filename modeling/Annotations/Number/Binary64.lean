import Annotations.Number.Decimal

/-!
# Double Precision Numbers

A double is a sign and a 63 bit magnitude code, the remaining bits of its
interchange format read as one natural number. Codes below `infinityCode` are
the finite magnitudes in increasing order, `infinityCode` itself is infinity and
the codes above it are not numbers.

Every finite magnitude is a whole multiple of `2⁻¹⁰⁷⁴`, the least positive one,
so `units` gives it exactly as a natural number. Rounding goes the other way.
To round a fraction, count how many units it holds; if that takes more than 53
bits, drop the excess low bits; round the quotient that is left to the nearest
whole number, a half to the even one. With `shift` bits dropped, the code is
`shift · 2⁵²` plus that number. The sum needs no case for subnormal results,
which are those with nothing dropped, nor for a quotient that rounds up to the
next power of two, which carries into the exponent as it should.

## Main definitions

* `roundDiv`: A quotient rounded to the nearest whole number, half to even.
* `Binary64`: A sign and a magnitude code.
* `Binary64.units`: A finite magnitude in multiples of the least one.
* `Binary64.nearestCode`: The code nearest to a fraction.
* `Binary64.ofDecimal`, `Binary64.ofInt`: The nearest double to a number.
* `Binary64.agrees`: Numeric equality.

## Theorems

* `roundDiv_mul`: A whole quotient is not rounded.
* `Binary64.log2_units`: How many bits the units of a code take.
* `Binary64.nearestCode_of_units`: A fraction that is a magnitude gives its code.
-/

namespace Annotations

namespace Number

/-- The quotient rounded to the nearest whole number, a half to the even one. -/
def roundDiv (num den : Nat) : Nat :=
  let down := num / den
  let rest := num % den
  if 2 * rest < den then down
  else if den < 2 * rest then down + 1
  else if down % 2 = 0 then down
  else down + 1

/-- A whole quotient is not rounded. -/
theorem roundDiv_mul (q den : Nat) (h : 0 < den) : roundDiv (q * den) den = q := by
  simp only [roundDiv, Nat.mul_div_cancel _ h, Nat.mul_mod_left, Nat.mul_zero, h, if_pos]

/-- A double precision number: its sign and the other 63 bits of its format. -/
structure Binary64 where
  negative : Bool
  code : Fin (2 ^ (63 : Nat))
deriving DecidableEq, Repr

namespace Binary64

/-- The code of infinity, one more than that of the greatest finite magnitude. -/
def infinityCode : Nat :=
  2047 * 2 ^ (52 : Nat)

/-- A finite magnitude in multiples of `2⁻¹⁰⁷⁴`. The upper 11 bits of the code
    are the exponent field; a field of zero or one scales by nothing, and a
    field above zero implies a leading bit. -/
def units (code : Nat) : Nat :=
  if code < 2 ^ (52 : Nat) then code
  else (2 ^ (52 : Nat) + code % 2 ^ (52 : Nat)) * 2 ^ (code / 2 ^ (52 : Nat) - 1)

/-- The least positive magnitude is one over two to this power. -/
def unitPlaces : Nat :=
  1074

/-- How many units make up one. -/
def unitsPerOne : Nat :=
  2 ^ unitPlaces

/-- The code of the magnitude nearest to `num / den`, a half going to the even
    code. Magnitudes beyond the finite ones give codes from `infinityCode` on. -/
def nearestCode (num den : Nat) : Nat :=
  let scaled := num * unitsPerOne
  let shift := Nat.log2 (scaled / den) - 52
  shift * 2 ^ (52 : Nat) + roundDiv scaled (den * 2 ^ shift)

/-- The units of a code with an exponent field above zero take 52 bits more than
    they are scaled by, not counting the leading one. -/
theorem log2_units {code : Nat} (h : 2 ^ (52 : Nat) ≤ code) :
    Nat.log2 (units code) = 52 + (code / 2 ^ (52 : Nat) - 1) := by
  have hm : code % 2 ^ (52 : Nat) < 2 ^ (52 : Nat) := Nat.mod_lt _ (by decide)
  have hlow : 2 ^ (52 + (code / 2 ^ (52 : Nat) - 1)) ≤ units code := by
    rw [units, if_neg (by omega), Nat.pow_add]
    exact Nat.mul_le_mul_right _ (Nat.le_add_right _ _)
  have hhigh : units code < 2 ^ (52 + (code / 2 ^ (52 : Nat) - 1) + 1) := by
    rw [units, if_neg (by omega), Nat.add_right_comm, Nat.pow_add]
    exact Nat.mul_lt_mul_of_pos_right (by omega) (Nat.two_pow_pos _)
  have hne : units code ≠ 0 := Nat.ne_of_gt (Nat.lt_of_lt_of_le (Nat.two_pow_pos _) hlow)
  have h1 := (Nat.le_log2 hne).2 hlow
  have h2 := (Nat.log2_lt hne).2 hhigh
  omega

/-- A fraction that is a finite magnitude gives the code of that magnitude:
    nothing is left over to be rounded. -/
theorem nearestCode_of_units {num den code : Nat} (hden : 0 < den)
    (h : num * unitsPerOne = units code * den) : nearestCode num den = code := by
  rw [nearestCode, h, Nat.mul_div_cancel _ hden]
  by_cases hc : code < 2 ^ (52 : Nat)
  · have hu : units code = code := by rw [units, if_pos hc]
    have hshift : Nat.log2 code - 52 = 0 := by
      by_cases hz : code = 0
      · rw [hz]
        rfl
      · have := (Nat.log2_lt hz).2 hc
        omega
    rw [hu, hshift, Nat.pow_zero, Nat.mul_one, roundDiv_mul _ _ hden]
    omega
  · -- With a leading bit, the bits dropped are those the exponent field scales by.
    have hshift : Nat.log2 (units code) - 52 = code / 2 ^ (52 : Nat) - 1 := by
      rw [log2_units (by omega)]
      omega
    have hu : units code * den =
        (2 ^ (52 : Nat) + code % 2 ^ (52 : Nat)) * (den * 2 ^ (code / 2 ^ (52 : Nat) - 1)) := by
      rw [units, if_neg hc, Nat.mul_assoc, Nat.mul_comm den]
    rw [hshift, hu, roundDiv_mul _ _ (Nat.mul_pos hden (Nat.two_pow_pos _))]
    omega

/-- The double of this sign nearest to `num / den`. -/
def ofFraction (negative : Bool) (num den : Nat) : Binary64 where
  negative := negative
  code := ⟨min (nearestCode num den) infinityCode,
    Nat.lt_of_le_of_lt (Nat.min_le_right _ _) (by decide)⟩

/-- The double of this sign nearest to a decimal. -/
def ofDecimal (negative : Bool) (d : Decimal) : Binary64 :=
  ofFraction negative d.numerator d.denominator

/-- The double nearest to an integer. -/
def ofInt (n : Int) : Binary64 :=
  ofFraction (n < 0) n.natAbs 1

/-- Infinity of either sign. -/
def infinity (negative : Bool) : Binary64 where
  negative := negative
  code := ⟨infinityCode, by decide⟩

/-- A quiet not-a-number of either sign. -/
def nan (negative : Bool) : Binary64 where
  negative := negative
  code := ⟨infinityCode + 2 ^ (51 : Nat), by decide⟩

/-- Neither infinite nor not a number. -/
def isFinite (x : Binary64) : Bool :=
  x.code.val < infinityCode

/-- Not a number. -/
def isNaN (x : Binary64) : Bool :=
  infinityCode < x.code.val

/-- Zero of either sign. -/
def isZero (x : Binary64) : Bool :=
  x.code.val = 0

/-- Numeric equality: the two zeros agree, and what is not a number agrees with
    nothing. -/
def agrees (x y : Binary64) : Bool :=
  !x.isNaN && !y.isNaN && (x = y || x.isZero && y.isZero)

end Binary64

end Number

end Annotations
