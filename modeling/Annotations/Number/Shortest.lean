import Annotations.Number.Binary64

/-!
# Shortest Decimals

The decimal with the fewest digits that reads back as a given finite magnitude
and, of those, the one nearest to it.

For one digit, then two, and so on, the value has two neighbours on the grid of
decimals with that many digits. The first grid on which a neighbour reads back
wins: whatever decimal of that length reads back, the neighbour between it and
the value does too. If both read back the nearer is taken, and where the two are
equally near a format has its own rule, the `Tie`.

Seventeen digits always suffice. The search does not rely on that: should no
grid answer, the exact expansion of the value is taken, which reads back because
nothing is left to round. So a shortest decimal reads back in any case.

## Main definitions

* `Tie`: Which of two equally near decimals is written.
* `neighbours`: The decimals of a grid on both sides of a magnitude.
* `onGrid`: The neighbour that a grid contributes, if one reads back.
* `exactDecimal`: A finite magnitude as a decimal, with all of its digits.
* `shortest`: The shortest decimal of a finite magnitude.

## Theorems

* `readsBack_exactDecimal`: The decimal with all digits reads back.
-/

namespace Annotations

namespace Number

/-- Which of two equally near decimals is written. -/
inductive Tie where
  /-- The greater one. -/
  | up
  /-- The one whose last digit is even. -/
  | even
deriving DecidableEq, Repr

/-- The finest grid that is used has steps of `10⁻³⁴¹`. The least magnitude is
    above `10⁻³²⁴`, so it leaves room for seventeen digits of any value. -/
def finestGrid : Nat :=
  341

/-- The steps of the finest grid that fit into a magnitude. -/
def finestSteps (code : Nat) : Nat :=
  Binary64.units code * 10 ^ finestGrid / Binary64.unitsPerOne

/-- The decimal reads back as the magnitude. -/
def readsBack (code : Nat) (d : Decimal) : Bool :=
  Binary64.nearestCode d.numerator d.denominator == code

/-- The two neighbours of the magnitude on the grid of `10 ^ coarseness` finest
    steps, the one to be preferred first. -/
def neighbours (tie : Tie) (code coarseness : Nat) : List Decimal :=
  let below := finestSteps code / 10 ^ coarseness
  let exponent : Int := coarseness - finestGrid
  let lower : Decimal := ⟨below, exponent⟩
  let upper : Decimal := ⟨below + 1, exponent⟩
  -- Twice the value and the sum of its neighbours, in units over the finest grid.
  let value := 2 * Binary64.units code * 10 ^ finestGrid
  let middle := (2 * below + 1) * 10 ^ coarseness * Binary64.unitsPerOne
  if value < middle then [lower, upper]
  else if middle < value then [upper, lower]
  else match tie with
    | .up => [upper, lower]
    | .even => if below % 2 = 0 then [lower, upper] else [upper, lower]

/-- The neighbour on a grid that reads back, the nearer one if both do. -/
def onGrid (tie : Tie) (code coarseness : Nat) : Option Decimal :=
  (neighbours tie code coarseness).find? (readsBack code)

/-- The magnitude as a decimal, with all of its digits. -/
def exactDecimal (code : Nat) : Decimal :=
  ⟨Binary64.units code * 5 ^ Binary64.unitPlaces, -Binary64.unitPlaces⟩

/-- The decimal with all digits reads back, as it leaves nothing to round. -/
theorem readsBack_exactDecimal (code : Nat) : readsBack code (exactDecimal code) = true := by
  have hnum : (exactDecimal code).numerator =
      Binary64.units code * 5 ^ Binary64.unitPlaces := by
    simp only [exactDecimal, Decimal.numerator, Int.toNat_neg_natCast, Nat.pow_zero, Nat.mul_one]
  have hden : (exactDecimal code).denominator = 10 ^ Binary64.unitPlaces := by
    simp only [exactDecimal, Decimal.denominator, Int.neg_neg, Int.toNat_natCast]
  have h : (exactDecimal code).numerator * Binary64.unitsPerOne =
      Binary64.units code * (exactDecimal code).denominator := by
    rw [hnum, hden, Binary64.unitsPerOne, Nat.mul_assoc, ← Nat.mul_pow]
  rw [readsBack, Binary64.nearestCode_of_units (Decimal.denominator_pos _) h, beq_self_eq_true]

/-- The shortest decimal that reads back as the magnitude. -/
def shortest (tie : Tie) (code : Nat) : Decimal :=
  let width := (Nat.toDigits 10 (finestSteps code)).length
  let found := (List.range 17).findSome? fun n => onGrid tie code (width - (n + 1))
  (found.getD (exactDecimal code)).trimmed

end Number

end Annotations
