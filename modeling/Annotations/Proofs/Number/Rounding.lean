import Annotations.Number.Shortest
import Mathlib.Tactic.Common

/-!
# Rounding Depends on the Number Only

A fraction can be written in many ways, and a decimal too. Rounding to a double
looks at a numerator and a denominator, so it has to be shown that it does not
tell apart two fractions of the same value. Scaling both sides by one factor
scales every quantity that is compared on the way, and that is the whole
argument.

It follows that the shortest decimal of a magnitude reads back as the magnitude.
The search for it tests each candidate, and what it does after the test, moving
zeros from the end of the coefficient into the exponent, keeps the value.

## Theorems

* `Binary64.nearestCode_congr`: Fractions of one value round to one double.
* `readsBack_trimFrom`: Trimming keeps what a decimal reads back as.
* `readsBack_shortest`: The shortest decimal of a magnitude reads back.
-/

namespace Annotations

namespace Number

/-- Scaling both sides of a quotient does not change how it is rounded. -/
theorem roundDiv_mul_mul {k : Nat} (hk : 0 < k) (num den : Nat) :
    roundDiv (num * k) (den * k) = roundDiv num den := by
  have hless : 2 * (num % den * k) < den * k ↔ 2 * (num % den) < den := by
    rw [← Nat.mul_assoc]
    exact Nat.mul_lt_mul_right hk
  have hmore : den * k < 2 * (num % den * k) ↔ den < 2 * (num % den) := by
    rw [← Nat.mul_assoc]
    exact Nat.mul_lt_mul_right hk
  -- The quotient stays, the remainder is scaled, and only comparisons with it count.
  simp only [roundDiv, Nat.mul_div_mul_right num den hk, Nat.mul_mod_mul_right, hless, hmore]

namespace Binary64

theorem nearestCode_mul_mul {k : Nat} (hk : 0 < k) (num den : Nat) :
    nearestCode (num * k) (den * k) = nearestCode num den := by
  have hscaled : num * k * unitsPerOne = num * unitsPerOne * k := Nat.mul_right_comm _ _ _
  have hquotient : num * unitsPerOne * k / (den * k) = num * unitsPerOne / den :=
    Nat.mul_div_mul_right _ _ hk
  simp only [nearestCode, hscaled, hquotient, Nat.mul_right_comm den k, roundDiv_mul_mul hk]

/-- Fractions of one value round to one double. -/
theorem nearestCode_congr {a b c d : Nat} (hb : 0 < b) (hd : 0 < d) (h : a * d = c * b) :
    nearestCode a b = nearestCode c d :=
  calc nearestCode a b
      _ = nearestCode (a * d) (b * d) := (nearestCode_mul_mul hd a b).symm
      _ = nearestCode (c * b) (d * b) := by rw [h, Nat.mul_comm b d]
      _ = nearestCode c d := nearestCode_mul_mul hb c d

end Binary64

/-- A zero at the end of the coefficient is worth one in the exponent. -/
theorem readsBack_shift (code coefficient : Nat) (exponent : Int) :
    readsBack code ⟨coefficient, exponent + 1⟩ = readsBack code ⟨coefficient * 10, exponent⟩ := by
  -- Only one of the exponents is not cut off at zero, so the two sides are
  -- multiplied out crosswise and the powers of ten counted.
  have hexponents : (exponent + 1).toNat + (-exponent).toNat =
      1 + exponent.toNat + (-(exponent + 1)).toNat := by omega
  have hvalue : coefficient * 10 ^ (exponent + 1).toNat * 10 ^ (-exponent).toNat =
      coefficient * 10 * 10 ^ exponent.toNat * 10 ^ (-(exponent + 1)).toNat := by
    rw [Nat.mul_assoc, ← Nat.pow_add, hexponents, Nat.pow_add, Nat.pow_add, Nat.pow_one,
      ← Nat.mul_assoc, ← Nat.mul_assoc]
  have hcodes := Binary64.nearestCode_congr (Decimal.denominator_pos ⟨coefficient, exponent + 1⟩)
    (Decimal.denominator_pos ⟨coefficient * 10, exponent⟩) hvalue
  exact congrArg (· == code) hcodes

/-- Moving zeros into the exponent does not change what a decimal reads back as. -/
theorem readsBack_trimFrom (code coefficient : Nat) (exponent : Int) :
    readsBack code (Decimal.trimFrom coefficient exponent) =
      readsBack code ⟨coefficient, exponent⟩ := by
  induction coefficient, exponent using Decimal.trimFrom.induct with
  | case1 coefficient exponent h ih =>
      have hten : coefficient / 10 * 10 = coefficient :=
        Nat.div_mul_cancel (Nat.dvd_of_mod_eq_zero h.2)
      rw [Decimal.trimFrom, dif_pos h, ih, readsBack_shift, hten]
  | case2 coefficient exponent h => rw [Decimal.trimFrom, dif_neg h]

/-- The shortest decimal of a magnitude reads back. -/
theorem readsBack_shortest (tie : Tie) (code : Nat) :
    readsBack code (shortest tie code) = true := by
  rw [shortest, Decimal.trimmed, readsBack_trimFrom]
  rcases hfound : (List.range 17).findSome? fun n =>
      onGrid tie code ((Nat.toDigits 10 (finestSteps code)).length - (n + 1)) with _ | d
  · -- No grid has a candidate: the decimal is the exact value.
    exact readsBack_exactDecimal code
  · -- A candidate was chosen because it reads back.
    rcases List.exists_of_findSome?_eq_some hfound with ⟨n, -, hgrid⟩
    exact List.find?_some hgrid

end Number

end Annotations
