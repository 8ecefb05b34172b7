import Annotations.Number.Binary64
import Mathlib.Order.Monotone.Basic
import Mathlib.Tactic.Common

/-!
# The Double Nearest to an Integer

Rounding is defined by what it computes: bits are counted, some are dropped, and
the quotient that is left goes to a whole number. `IsNearest` says what the
result should be without any of this. It compares distances, which are whole
numbers when everything is counted in multiples of the least positive double.

The magnitudes increase with their codes, so it is enough to look at both
neighbours of a code: a number is rounded to it if the number is at most halfway
to either of them, where halfway is allowed for an even code only. That the code
computed for a fraction has this property comes down to the quotient being
rounded to the nearest whole number. Only the least code of an exponent needs
more, as the neighbour below it is half as far away as the one above; there the
fraction is never below the code.

## Main definitions

* `Binary64.Rounded`: The bits that are left of a fraction once it is rounded.
* `Binary64.signedUnits`: A finite double in multiples of the least positive one.
* `Binary64.distance`: How far a finite double is from an integer.
* `Binary64.IsNearest`: The double nearest to an integer, the even one of two.

## Theorems

* `roundDiv_bounds`: Rounding a quotient goes at most half of the divisor away.
* `Binary64.units_add`: The units of a code from the bits it is made of.
* `Binary64.units_strictMono`: Greater codes are greater magnitudes.
* `Binary64.nearestCode_upper`, `Binary64.nearestCode_lower`: A fraction is at most
  halfway from its code to the neighbouring ones.
* `Binary64.IsNearest.unique`: Only one double is nearest to an integer.
* `Binary64.isNearest_iff`: It is the double that the integer is rounded to.
-/

namespace Annotations

namespace Number

/-- Rounding keeps the quotient or adds one to it. -/
theorem roundDiv_eq (num den : Nat) :
    roundDiv num den = num / den ∨ roundDiv num den = num / den + 1 := by
  simp only [roundDiv]
  split
  · exact .inl rfl
  · split
    · exact .inr rfl
    · split
      · exact .inl rfl
      · exact .inr rfl

/-- Rounding goes at most half of the divisor up or down, and exactly half only
    to an even number. -/
theorem roundDiv_bounds (num : Nat) {den : Nat} (hden : 0 < den) :
    (2 * (roundDiv num den * den) ≤ 2 * num + den ∧
      2 * num ≤ 2 * (roundDiv num den * den) + den) ∧
    (2 * (roundDiv num den * den) = 2 * num + den ∨
      2 * num = 2 * (roundDiv num den * den) + den → roundDiv num den % 2 = 0) := by
  have hparts : num / den * den + num % den = num := by
    rw [Nat.mul_comm]
    exact Nat.div_add_mod num den
  have hrest : num % den < den := Nat.mod_lt num hden
  have hup : (num / den + 1) * den = num / den * den + den := Nat.succ_mul _ _
  simp only [roundDiv]
  split
  · omega
  · split
    · rw [hup]
      omega
    · split
      · omega
      · rw [hup]
        omega

namespace Binary64

/-- A code put together from a number of dropped bits and the bits that are
    left. One more than 53 bits can hold carries into the exponent field. -/
theorem units_add {shift bits : Nat} (hbits : bits ≤ 2 ^ (53 : Nat))
    (hlead : shift = 0 ∨ 2 ^ (52 : Nat) ≤ bits) :
    units (shift * 2 ^ (52 : Nat) + bits) = bits * 2 ^ shift := by
  by_cases hlow : shift * 2 ^ (52 : Nat) + bits < 2 ^ (52 : Nat)
  · have hshift : shift = 0 := by omega
    rw [units, if_pos hlow, hshift]
    omega
  · rw [units, if_neg hlow]
    by_cases htop : bits = 2 ^ (53 : Nat)
    · have hfield : (shift * 2 ^ (52 : Nat) + bits) / 2 ^ (52 : Nat) - 1 = shift + 1 := by omega
      have hrest : (shift * 2 ^ (52 : Nat) + bits) % 2 ^ (52 : Nat) = 0 := by omega
      rw [hfield, hrest, htop, Nat.pow_succ]
      omega
    · have hfield : (shift * 2 ^ (52 : Nat) + bits) / 2 ^ (52 : Nat) - 1 = shift := by omega
      have hrest : 2 ^ (52 : Nat) + (shift * 2 ^ (52 : Nat) + bits) % 2 ^ (52 : Nat) = bits := by
        omega
      rw [hfield, hrest]

/-- Every code comes from at most 53 bits. -/
theorem exists_eq_add (code : Nat) : ∃ shift bits, bits < 2 ^ (53 : Nat) ∧
    (shift = 0 ∨ 2 ^ (52 : Nat) ≤ bits) ∧ code = shift * 2 ^ (52 : Nat) + bits := by
  by_cases hlow : code < 2 ^ (52 : Nat)
  · exact ⟨0, code, by omega, .inl rfl, by omega⟩
  · exact ⟨code / 2 ^ (52 : Nat) - 1, 2 ^ (52 : Nat) + code % 2 ^ (52 : Nat),
      by omega, by omega, by omega⟩

/-- Greater codes are greater magnitudes. -/
theorem units_lt_succ (code : Nat) : units code < units (code + 1) := by
  rcases exists_eq_add code with ⟨shift, bits, hbits, hlead, rfl⟩
  have hnext : units (shift * 2 ^ (52 : Nat) + (bits + 1)) = (bits + 1) * 2 ^ shift :=
    units_add hbits (by omega)
  rw [Nat.add_assoc, units_add (by omega) hlead, hnext]
  exact Nat.mul_lt_mul_of_pos_right (Nat.lt_succ_self _) (Nat.two_pow_pos _)

theorem units_strictMono : StrictMono units :=
  strictMono_nat_of_lt_succ units_lt_succ

/-- The bits that are left of a number of units over `den` once `shift` bits were dropped.
    At most 53 bits are left, and rounding can only make this the least number of 54
    bits; if any were dropped, the leading one is among those left. Rounding goes at most
    half a step away, and exactly half only to an even number. -/
structure Rounded (scaled den shift bits : Nat) : Prop where
  bits_le : bits ≤ 2 ^ (53 : Nat)
  lead : shift = 0 ∨ 2 ^ (52 : Nat) ≤ bits ∧ 2 ^ (52 + shift) * den ≤ scaled
  lower : 2 * (bits * (den * 2 ^ shift)) ≤ 2 * scaled + den * 2 ^ shift
  upper : 2 * scaled ≤ 2 * (bits * (den * 2 ^ shift)) + den * 2 ^ shift
  even : 2 * (bits * (den * 2 ^ shift)) = 2 * scaled + den * 2 ^ shift ∨
    2 * scaled = 2 * (bits * (den * 2 ^ shift)) + den * 2 ^ shift → bits % 2 = 0

theorem Rounded.units_eq {scaled den shift bits : Nat} (h : Rounded scaled den shift bits) :
    units (shift * 2 ^ (52 : Nat) + bits) = bits * 2 ^ shift :=
  units_add h.bits_le (h.lead.imp_right And.left)

/-- What the code of a fraction is put together from. -/
theorem exists_nearestCode_eq (num : Nat) {den : Nat} (hden : 0 < den) : ∃ shift bits,
    nearestCode num den = shift * 2 ^ (52 : Nat) + bits ∧
      Rounded (num * unitsPerOne) den shift bits := by
  obtain ⟨shift, hshift⟩ : ∃ shift, shift = Nat.log2 (num * unitsPerOne / den) - 52 := ⟨_, rfl⟩
  have hpos : 0 < den * 2 ^ shift := Nat.mul_pos hden (Nat.two_pow_pos shift)
  have hbounds := roundDiv_bounds (num * unitsPerOne) hpos
  have hround := roundDiv_eq (num * unitsPerOne) (den * 2 ^ shift)
  rw [← Nat.div_div_eq_div_mul] at hround
  refine ⟨shift, _, by simp only [nearestCode, hshift], ?_, ?_, hbounds.1.1, hbounds.1.2,
    hbounds.2⟩
  · have hless : num * unitsPerOne / den / 2 ^ shift < 2 ^ (53 : Nat) := by
      rw [Nat.div_lt_iff_lt_mul (Nat.two_pow_pos _), ← Nat.pow_add]
      exact Nat.lt_of_lt_of_le Nat.lt_log2_self (Nat.pow_le_pow_right (by decide) (by omega))
    omega
  · by_cases hnone : shift = 0
    · exact .inl hnone
    have hzero : num * unitsPerOne / den ≠ 0 := by
      intro hzero
      rw [hzero] at hshift
      exact hnone hshift
    have hlow : 2 ^ (52 + shift) ≤ num * unitsPerOne / den :=
      (Nat.le_log2 hzero).mp (by omega)
    have hquotient : 2 ^ (52 : Nat) ≤ num * unitsPerOne / den / 2 ^ shift := by
      rw [Nat.le_div_iff_mul_le (Nat.two_pow_pos _), ← Nat.pow_add]
      exact hlow
    exact .inr ⟨by omega, (Nat.le_div_iff_mul_le hden).mp hlow⟩

/-- The next code is at least one step further up. Where the bits have carried, it is one
    of the next exponent, and two steps. -/
theorem Rounded.le_units_succ {scaled den shift bits : Nat} (h : Rounded scaled den shift bits) :
    (bits + 1) * 2 ^ shift ≤ units (shift * 2 ^ (52 : Nat) + bits + 1) := by
  have hbits := h.bits_le
  have hlead := h.lead
  rw [Nat.add_assoc]
  by_cases htop : bits = 2 ^ (53 : Nat)
  · have hcarry : shift * 2 ^ (52 : Nat) + (bits + 1) =
        (shift + 1) * 2 ^ (52 : Nat) + (2 ^ (52 : Nat) + 1) := by omega
    rw [hcarry, units_add (by decide) (.inr (by decide)), Nat.pow_succ, htop]
    have := Nat.two_pow_pos shift
    omega
  · rw [units_add (by omega) (by omega)]

/-- In units, a fraction is at most halfway from its code to the next one, and
    exactly halfway only if the code is even. -/
theorem nearestCode_upper (num : Nat) {den : Nat} (hden : 0 < den) :
    2 * (num * unitsPerOne) ≤
        (units (nearestCode num den) + units (nearestCode num den + 1)) * den ∧
      (2 * (num * unitsPerOne) =
        (units (nearestCode num den) + units (nearestCode num den + 1)) * den →
        nearestCode num den % 2 = 0) := by
  rcases exists_nearestCode_eq num hden with ⟨shift, bits, hcode, hrounded⟩
  have hnext := hrounded.le_units_succ
  have hupper := hrounded.upper
  rw [hcode, hrounded.units_eq]
  have hsum : 2 * (bits * (den * 2 ^ shift)) + den * 2 ^ shift ≤
      (bits * 2 ^ shift + units (shift * 2 ^ (52 : Nat) + bits + 1)) * den := by
    calc 2 * (bits * (den * 2 ^ shift)) + den * 2 ^ shift
        _ = (bits * 2 ^ shift + (bits + 1) * 2 ^ shift) * den := by grind
        _ ≤ _ := Nat.mul_le_mul_right den (Nat.add_le_add_left hnext _)
  refine ⟨by omega, fun hhalf => ?_⟩
  have heven : bits % 2 = 0 := hrounded.even (by omega)
  omega

/-- It is at least halfway from the code before to its own, and exactly halfway
    only if its code is even. -/
theorem nearestCode_lower {num den code : Nat} (hden : 0 < den)
    (h : nearestCode num den = code + 1) :
    (units code + units (code + 1)) * den ≤ 2 * (num * unitsPerOne) ∧
      ((units code + units (code + 1)) * den = 2 * (num * unitsPerOne) →
        (code + 1) % 2 = 0) := by
  rcases exists_nearestCode_eq num hden with ⟨shift, bits, hcode, hrounded⟩
  rw [h] at hcode
  have hunits : units (code + 1) = bits * 2 ^ shift := by
    rw [hcode]
    exact hrounded.units_eq
  have hbits := hrounded.bits_le
  have hlead := hrounded.lead
  by_cases hleast : shift ≠ 0 ∧ bits = 2 ^ (52 : Nat)
  · -- The code before is one of the exponent before. The fraction is above both.
    have hbefore : units code < units (code + 1) := units_lt_succ code
    have habove : units (code + 1) * den ≤ num * unitsPerOne := by
      rw [hunits, hleast.2, ← Nat.pow_add]
      exact (hlead.resolve_left hleast.1).2
    have hstrict : (units code + units (code + 1)) * den < 2 * (num * unitsPerOne) := by
      calc (units code + units (code + 1)) * den
          _ < (units (code + 1) + units (code + 1)) * den :=
            Nat.mul_lt_mul_of_pos_right (by omega) hden
          _ = 2 * (units (code + 1) * den) := by rw [← Nat.two_mul, Nat.mul_assoc]
          _ ≤ _ := Nat.mul_le_mul_left 2 habove
    exact ⟨Nat.le_of_lt hstrict, fun hhalf => absurd hhalf (Nat.ne_of_lt hstrict)⟩
  · obtain ⟨fewer, rfl⟩ : ∃ fewer, bits = fewer + 1 := ⟨bits - 1, by omega⟩
    have hbefore : units code = fewer * 2 ^ shift := by
      have : code = shift * 2 ^ (52 : Nat) + fewer := by omega
      rw [this]
      exact units_add (by omega) (by omega)
    have hsum : (units code + units (code + 1)) * den + den * 2 ^ shift =
        2 * ((fewer + 1) * (den * 2 ^ shift)) := by
      rw [hbefore, hunits]
      grind
    have hlower := hrounded.lower
    refine ⟨by omega, fun hhalf => ?_⟩
    have heven : (fewer + 1) % 2 = 0 := hrounded.even (by omega)
    omega

/-- A finite double in multiples of `2⁻¹⁰⁷⁴`. -/
def signedUnits (x : Binary64) : Int :=
  if x.negative then -(units x.code.val : Int) else units x.code.val

/-- How far a finite double is from an integer, in multiples of `2⁻¹⁰⁷⁴`. -/
def distance (x : Binary64) (n : Int) : Nat :=
  (x.signedUnits - n * unitsPerOne).natAbs

/-- The double is the one nearest to the integer: no finite double is nearer, if
    another one is as near its own code is even, and it has the sign of the
    integer, so that zero is the positive one. -/
structure IsNearest (n : Int) (x : Binary64) : Prop where
  finite : x.isFinite = true
  sign : x.negative = decide (n < 0)
  least : ∀ y : Binary64, y.isFinite = true → x.distance n ≤ y.distance n
  even : ∀ y : Binary64, y.isFinite = true → y.distance n = x.distance n →
    y.signedUnits ≠ x.signedUnits → x.code.val % 2 = 0

/-- The distance from an integer of the same sign is that of the magnitudes. -/
theorem distance_of_sign {x : Binary64} {n : Int} (h : x.negative = decide (n < 0)) :
    x.distance n = ((units x.code.val : Int) - (n.natAbs * unitsPerOne : Nat)).natAbs := by
  rw [distance, signedUnits, h]
  by_cases hn : n < 0
  · have habs : (n.natAbs : Int) = -n := by omega
    rw [if_pos (decide_eq_true hn), Int.natCast_mul, habs, Int.neg_mul]
    omega
  · have habs : (n.natAbs : Int) = n := by omega
    rw [if_neg (by simpa using hn), Int.natCast_mul, habs]

/-- From an integer of the other sign it is their sum. -/
theorem distance_of_ne_sign {x : Binary64} {n : Int} (h : x.negative ≠ decide (n < 0)) :
    x.distance n = units x.code.val + n.natAbs * unitsPerOne := by
  rw [distance, signedUnits, Bool.eq_not.mpr h]
  by_cases hn : n < 0
  · have habs : (n.natAbs : Int) = -n := by omega
    have hmul : ((n.natAbs * unitsPerOne : Nat) : Int) = -(n * unitsPerOne) := by
      rw [Int.natCast_mul, habs, Int.neg_mul]
    rw [if_neg (by simpa using hn)]
    omega
  · have habs : (n.natAbs : Int) = n := by omega
    have hmul : ((n.natAbs * unitsPerOne : Nat) : Int) = n * unitsPerOne := by
      rw [Int.natCast_mul, habs]
    rw [if_pos (by simpa using hn)]
    omega

/-- Of all codes, the one an integer is rounded to is nearest to it, and even if
    another one is as near. -/
theorem nearestCode_least (m other : Nat) :
    ((units (nearestCode m 1) : Int) - (m * unitsPerOne : Nat)).natAbs ≤
        ((units other : Int) - (m * unitsPerOne : Nat)).natAbs ∧
      (((units other : Int) - (m * unitsPerOne : Nat)).natAbs =
          ((units (nearestCode m 1) : Int) - (m * unitsPerOne : Nat)).natAbs →
        other ≠ nearestCode m 1 → nearestCode m 1 % 2 = 0) := by
  rcases Nat.lt_trichotomy other (nearestCode m 1) with hless | rfl | hmore
  · rcases hcode : nearestCode m 1 with _ | code
    · omega
    · have hlower := nearestCode_lower Nat.one_pos hcode
      have hother : units other ≤ units code := units_strictMono.monotone (by omega)
      have hstep := units_lt_succ code
      rw [Nat.mul_one] at hlower
      generalize m * unitsPerOne = target at *
      refine ⟨by omega, fun hhalf _ => hlower.2 (by omega)⟩
  · exact ⟨Nat.le_refl _, fun _ hne => absurd rfl hne⟩
  · have hupper := nearestCode_upper m Nat.one_pos
    have hother : units (nearestCode m 1 + 1) ≤ units other :=
      units_strictMono.monotone hmore
    have hstep := units_lt_succ (nearestCode m 1)
    rw [Nat.mul_one] at hupper
    generalize m * unitsPerOne = target at *
    refine ⟨by omega, fun hhalf _ => hupper.2 (by omega)⟩

/-- Integers of 64 bits round to finite doubles. In units they take fewer than
    1139 bits, and finite doubles have exponents for more than 2000. -/
theorem nearestCode_lt_infinityCode {m : Nat} (h : m ≤ 2 ^ (63 : Nat)) :
    nearestCode m 1 < infinityCode := by
  rcases exists_nearestCode_eq m Nat.one_pos with ⟨shift, bits, hcode, hrounded⟩
  have hbits := hrounded.bits_le
  have hshift : shift ≤ 1085 := by
    rcases hrounded.lead with rfl | ⟨-, hunits⟩
    · exact Nat.zero_le _
    have hpow : 2 ^ (52 + shift) ≤ 2 ^ (63 + unitPlaces) := by
      rw [Nat.mul_one] at hunits
      refine Nat.le_trans hunits ?_
      rw [unitsPerOne, Nat.pow_add]
      -- The power is out of reach of evaluation, so nothing may try to unfold it.
      generalize 2 ^ unitPlaces = units
      exact Nat.mul_le_mul_right units h
    have hplaces := (Nat.pow_le_pow_iff_right (by decide)).mp hpow
    rw [unitPlaces] at hplaces
    omega
  rw [hcode, infinityCode]
  omega

/-- An integer is rounded to a double that is nearest to it. -/
theorem isNearest_ofInt {n : Int} (h : n.natAbs ≤ 2 ^ (63 : Nat)) : IsNearest n (ofInt n) := by
  have hless : nearestCode n.natAbs 1 < infinityCode := nearestCode_lt_infinityCode h
  have hcode : (ofInt n).code.val = nearestCode n.natAbs 1 :=
    Nat.min_eq_left (Nat.le_of_lt hless)
  have hfinite : (ofInt n).isFinite = true := by
    rw [isFinite, decide_eq_true_eq, hcode]
    exact hless
  have hsign : (ofInt n).negative = decide (n < 0) := rfl
  -- A double of the other sign is no nearer than zero is.
  have hzero : units 0 = 0 := rfl
  refine ⟨hfinite, hsign, fun y _ => ?_, fun y _ htie hne => ?_⟩
  · rw [distance_of_sign hsign, hcode]
    by_cases hy : y.negative = decide (n < 0)
    · rw [distance_of_sign hy]
      exact (nearestCode_least n.natAbs y.code.val).1
    · rw [distance_of_ne_sign hy]
      have := (nearestCode_least n.natAbs 0).1
      omega
  · rw [distance_of_sign hsign, hcode] at htie
    rw [hcode]
    by_cases hy : y.negative = decide (n < 0)
    · rw [distance_of_sign hy] at htie
      refine (nearestCode_least n.natAbs y.code.val).2 htie (fun hsame => hne ?_)
      rw [signedUnits, signedUnits, hy, hsign, hcode, hsame]
    · rw [distance_of_ne_sign hy] at htie
      have hleast := nearestCode_least n.natAbs 0
      refine hleast.2 (by omega) (fun hsame => hne ?_)
      rw [signedUnits, signedUnits, hcode, ← hsame, hzero]
      have hunits : units y.code.val = 0 := by omega
      rw [hunits]
      simp only [Int.natCast_zero, Int.neg_zero, ite_self]

/-- Only one double is nearest to an integer. Two that are as near as one
    another have even codes, and the double between them is nearer. -/
theorem IsNearest.unique {n : Int} {x y : Binary64} (hx : IsNearest n x) (hy : IsNearest n y) :
    x = y := by
  have hsign : x.negative = y.negative := hx.sign.trans hy.sign.symm
  by_contra hne
  have hcodes : x.code.val ≠ y.code.val := by
    intro hcode
    refine hne ?_
    rcases x with ⟨negative, code⟩
    rcases y with ⟨negative', code'⟩
    cases hsign
    cases Fin.ext hcode
    rfl
  wlog hless : x.code.val < y.code.val generalizing x y
  · exact this hy hx hsign.symm (Ne.symm hne) hcodes.symm (by omega)
  have hunits : units x.code.val < units y.code.val := units_strictMono hless
  have happart : y.signedUnits ≠ x.signedUnits := by
    rw [signedUnits, signedUnits, hsign]
    split <;> omega
  have htie : y.distance n = x.distance n :=
    Nat.le_antisymm (hy.least x hx.finite) (hx.least y hy.finite)
  have hxeven := hx.even y hy.finite htie happart
  have hyeven := hy.even x hx.finite htie.symm happart.symm
  have hyfinite : y.code.val < infinityCode := of_decide_eq_true hy.finite
  have hbound := y.code.isLt
  let z : Binary64 := ⟨x.negative, ⟨x.code.val + 1, by omega⟩⟩
  have hzfinite : z.isFinite = true := decide_eq_true (by show x.code.val + 1 < _; omega)
  have hzleast := hx.least z hzfinite
  have hlow : units x.code.val < units (x.code.val + 1) := units_lt_succ _
  have hhigh : units (x.code.val + 1) < units y.code.val := units_strictMono (by omega)
  have hz : z.distance n =
      ((units (x.code.val + 1) : Int) - (n.natAbs * unitsPerOne : Nat)).natAbs :=
    distance_of_sign hx.sign
  rw [distance_of_sign hx.sign, distance_of_sign hy.sign] at htie
  rw [distance_of_sign hx.sign, hz] at hzleast
  omega

/-- The double nearest to an integer of 64 bits is the one it is rounded to. -/
theorem isNearest_iff {n : Int} {x : Binary64} (h : n.natAbs ≤ 2 ^ (63 : Nat)) :
    IsNearest n x ↔ x = ofInt n := by
  constructor
  · intro hx
    exact hx.unique (isNearest_ofInt h)
  · rintro rfl
    exact isNearest_ofInt h

end Binary64

end Number

end Annotations
