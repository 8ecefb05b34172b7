import Annotations.Number.Reading
import Annotations.Proofs.Number.Rounding
import Annotations.Proofs.Token.Lexeme
import Annotations.Tag.Canonical

/-!
# Numbers Are Read as They Were Written

What is written for an integer that is not negative, and for a finite double
without a sign, is read back as the same number, bit for bit. The text has the
form that a number token has, so it will be cut out of a source as one token.

A double is written as the digits of its shortest decimal with a point among
them. Zeros may be added, in front of the digits where the point comes before
them, behind them where it comes after, and one behind the point where nothing
else is. None of this changes the value: the coefficient and the power of ten
that are read make up a fraction with both sides scaled by one factor.

Conversely, what the text of a number token reads as has no sign.

## Theorems

* `readInteger?_integerText`: An integer is read as it was written.
* `readInteger?_nonneg`: Digits do not read as a negative integer.
* `readBinary64?_of_digits`: Digits around a point read as a decimal.
* `writePlain_eq`: A decimal is written as digits around a point.
* `writeMagnitude_of_isPlain`: So is a magnitude, unless the style uses an exponent.
* `readBinary64?_floatText`: A double is read as it was written.
-/

namespace Annotations

open Text

namespace Number

theorem splitSign_of_isDigit {c : Char} (hc : c.isDigit = true) (cs : List Char) :
    splitSign (c :: cs) = (false, c :: cs) := by
  unfold splitSign
  split
  · next heq =>
      cases heq
      cases hc
  · next heq =>
      cases heq
      cases hc
  · rfl

theorem toLower_of_isDigit {c : Char} (hc : c.isDigit = true) : c.toLower = c := by
  have hnine : c.val ≤ 57 := by
    simp only [Char.isDigit, Bool.and_eq_true, decide_eq_true_eq] at hc
    exact hc.2
  refine dif_neg ?_
  rintro ⟨hA, -⟩
  exact absurd (UInt32.le_trans hA hnine) (by decide)

theorem readDigits?_of_isDigits {cs : List Char} (h : IsDigits cs) :
    readDigits? cs = some (Nat.ofDigitChars 10 cs 0) := by
  have hempty : cs.isEmpty = false := List.isEmpty_eq_false_iff.mpr h.1
  have hall : cs.all Char.isDigit = true := List.all_eq_true.mpr h.2
  rw [readDigits?, hempty, hall]
  rfl

theorem isDigits_toDigits (n : Nat) : IsDigits (Nat.toDigits 10 n) :=
  ⟨Nat.toDigits_ne_nil, fun _ hc => Nat.isDigit_of_mem_toDigits (by decide) (by decide) hc⟩

/-- The integer that digits read as, if it is not too great. -/
theorem readInteger?_of_isDigits {cs : List Char} (h : IsDigits cs) :
    readInteger? cs =
      if Nat.ofDigitChars 10 cs 0 < 2 ^ (63 : Nat) then
        some (Int64.ofInt (Nat.ofDigitChars 10 cs 0))
      else none := by
  have hsplit : splitSign cs = (false, cs) := by
    rcases cs with _ | ⟨c, cs⟩
    · exact absurd rfl h.1
    · exact splitSign_of_isDigit (h.2 c List.mem_cons_self) cs
  have hfits : ∀ n : Nat,
      (-2 ^ (63 : Nat) ≤ (n : Int) ∧ (n : Int) < 2 ^ (63 : Nat)) ↔ n < 2 ^ (63 : Nat) := by
    omega
  rw [readInteger?, hsplit]
  -- There is no sign, so the value is the number itself and only its size is tested.
  show ((readDigits? cs).bind fun m => _) = _
  rw [readDigits?_of_isDigits h, Option.bind_some]
  generalize Nat.ofDigitChars 10 cs 0 = n
  show (if -2 ^ (63 : Nat) ≤ (n : Int) ∧ (n : Int) < 2 ^ (63 : Nat) then
    some (Int64.ofInt n) else none) = _
  simp only [hfits]

/-- Digits do not read as a negative integer. -/
theorem readInteger?_nonneg {cs : List Char} {n : Int64} (h : IsDigits cs)
    (hn : readInteger? cs = some n) : 0 ≤ n.toInt := by
  rw [readInteger?_of_isDigits h] at hn
  split at hn
  · next hfits =>
      rw [← Option.some.inj hn, Int64.toInt_ofInt_of_le (by omega) (by omega)]
      exact Int.natCast_nonneg _
  · cases hn

/-- An integer that is not negative is written in digits and read as it was
    written. -/
theorem readInteger?_integerText {n : Int64} (h : 0 ≤ n.toInt) :
    IsDigits (integerText n) ∧ readInteger? (integerText n) = some n := by
  have htext : integerText n = Nat.toDigits 10 n.toInt.natAbs := by
    rw [integerText, if_neg (by omega), List.nil_append]
  have hdigits := isDigits_toDigits n.toInt.natAbs
  have hbound := n.toInt_lt
  rw [htext]
  refine ⟨hdigits, ?_⟩
  rw [readInteger?_of_isDigits hdigits, Nat.ofDigitChars_ten_toDigits, if_pos (by omega),
    Int.natAbs_of_nonneg h, Int64.ofInt_toInt]

/-- Digits around a point read as the decimal of all of them. -/
theorem readBinary64?_of_digits {whole fraction : List Char} (hwhole : IsDigits whole)
    (hfraction : ∀ c ∈ fraction, c.isDigit = true) :
    readBinary64? (whole ++ '.' :: fraction) =
      some (.ofDecimal false ⟨Nat.ofDigitChars 10 (whole ++ fraction) 0, -fraction.length⟩) := by
  have hpoint : ∀ c ∈ ('.' :: fraction).head?, c.isDigit = false := by
    intro c hc
    cases hc
    rfl
  have htake : fraction.takeWhile Char.isDigit = fraction :=
    List.takeWhile_eq_self_iff.mpr hfraction
  have hdrop : fraction.dropWhile Char.isDigit = [] :=
    List.dropWhile_eq_nil_iff.mpr hfraction
  have hempty : whole.isEmpty = false := List.isEmpty_eq_false_iff.mpr hwhole.1
  have hdecimal : readDecimal? (whole ++ '.' :: fraction) =
      some ⟨Nat.ofDigitChars 10 (whole ++ fraction) 0, -fraction.length⟩ := by
    simp only [readDecimal?, takeWhile_append_stop hwhole.2 hpoint,
      dropWhile_append_stop hwhole.2 hpoint, htake, hdrop, hempty, Bool.false_and,
      Bool.false_eq_true, if_false, Option.bind_eq_bind, Option.bind_some, Int.zero_sub]
  rcases whole with _ | ⟨c, whole⟩
  · exact absurd rfl hwhole.1
  have hc : c.isDigit = true := hwhole.2 c List.mem_cons_self
  -- A digit is not the first letter of a word for infinity or for no number.
  rw [readBinary64?, List.cons_append, splitSign_of_isDigit hc]
  simp only [List.map_cons, toLower_of_isDigit hc]
  have hn : c ≠ 'n' := by
    rintro rfl
    cases hc
  have hi : c ≠ 'i' := by
    rintro rfl
    cases hc
  rw [List.cons_append] at hdecimal
  simp only [List.cons.injEq, hn, hi, false_and, or_self, if_false, hdecimal, Option.map_some]

/-- The digits of a decimal around its point. All of them write its numerator, and
    those after the point are as many as its denominator has zeros. -/
theorem plain_eq (d : Decimal) :
    IsDigits d.plain.1 ∧ (∀ c ∈ d.plain.2, c.isDigit = true) ∧
      Nat.ofDigitChars 10 (d.plain.1 ++ d.plain.2) 0 = d.numerator ∧
      10 ^ d.plain.2.length = d.denominator := by
  have hzeros : ∀ n, ∀ c ∈ List.replicate n '0', c.isDigit = true := by
    intro n c hc
    rw [List.eq_of_mem_replicate hc]
    rfl
  simp only [Decimal.plain, List.take_append_drop]
  -- The digits are padded so that there is one before the point in any case.
  generalize hplaces : (-d.exponent).toNat = places
  generalize hpadded : List.replicate (places + 1 - d.digits.length) '0' ++ d.digits ++
    List.replicate d.exponent.toNat '0' = padded
  have hdigits : ∀ c ∈ padded, c.isDigit = true := by
    rw [← hpadded]
    simp only [List.forall_mem_append]
    exact ⟨⟨hzeros _, (isDigits_toDigits _).2⟩, hzeros _⟩
  have hlength : places < padded.length := by
    rw [← hpadded]
    simp only [List.length_append, List.length_replicate]
    omega
  refine ⟨⟨?_, fun c hc => hdigits c (List.mem_of_mem_take hc)⟩,
    fun c hc => hdigits c (List.mem_of_mem_drop hc), ?_, ?_⟩
  · rw [← List.length_pos_iff, List.length_take]
    omega
  · -- Zeros in front are worth nothing, and each one behind multiplies by ten.
    rw [← hpadded, Nat.ofDigitChars_append, Nat.ofDigitChars_append,
      Nat.ofDigitChars_replicate_zero, Nat.ofDigitChars_replicate_zero, Nat.mul_zero,
      Decimal.digits, Nat.ofDigitChars_ten_toDigits, Decimal.numerator, Nat.mul_comm]
  · rw [List.length_drop, Decimal.denominator, hplaces]
    congr 1
    omega

/-- A decimal is written as digits around a point that make up a fraction of the
    same value. -/
theorem writePlain_eq (d : Decimal) :
    ∃ whole fraction, FloatStyle.writePlain d = whole ++ '.' :: fraction ∧ IsDigits whole ∧
      (∀ c ∈ fraction, c.isDigit = true) ∧
      Binary64.nearestCode (Nat.ofDigitChars 10 (whole ++ fraction) 0) (10 ^ fraction.length) =
        Binary64.nearestCode d.numerator d.denominator := by
  rcases plain_eq d with ⟨hwhole, hfraction, hnumerator, hdenominator⟩
  rcases hplain : d.plain with ⟨whole, fraction⟩
  simp only [hplain] at hwhole hfraction hnumerator hdenominator
  simp only [FloatStyle.writePlain, hplain]
  by_cases hempty : fraction.isEmpty = true
  · -- A zero is added behind the point, which scales both sides by ten.
    rw [List.isEmpty_iff.mp hempty] at hnumerator hdenominator ⊢
    refine ⟨whole, ['0'], rfl, hwhole, by simp, ?_⟩
    rw [List.append_nil] at hnumerator
    have hscaled : Nat.ofDigitChars 10 (whole ++ ['0']) 0 = d.numerator * 10 := by
      rw [Nat.ofDigitChars_append, hnumerator, Nat.mul_comm]
      rfl
    rw [hscaled, ← hdenominator]
    exact Binary64.nearestCode_mul_mul (by decide) d.numerator 1
  · refine ⟨whole, fraction, by rw [if_neg hempty], hwhole, hfraction, ?_⟩
    rw [hnumerator, hdenominator]

/-- A magnitude that a style writes without an exponent is written as digits around a point
    that round to it. -/
theorem writeMagnitude_of_isPlain {style : FloatStyle} {code : Nat}
    (h : code = 0 ∨ style.isPlain (shortest style.tie code).leading = true) :
    ∃ whole fraction, style.writeMagnitude code = whole ++ '.' :: fraction ∧
      IsDigits whole ∧ (∀ c ∈ fraction, c.isDigit = true) ∧
      Binary64.nearestCode (Nat.ofDigitChars 10 (whole ++ fraction) 0) (10 ^ fraction.length) =
        code := by
  rw [FloatStyle.writeMagnitude]
  by_cases hzero : code = 0
  · -- Zero has no shortest decimal and is written out.
    rw [if_pos hzero, hzero]
    refine ⟨['0'], ['0'], rfl, ⟨List.cons_ne_nil _ _, by simp⟩, by simp, ?_⟩
    have hdigits : Nat.ofDigitChars 10 (['0'] ++ ['0']) 0 = 0 := rfl
    refine Binary64.nearestCode_of_units (by decide) ?_
    rw [hdigits, Nat.zero_mul, Binary64.units, if_pos (by decide), Nat.zero_mul]
  · have hplain := h.resolve_left hzero
    simp only [hzero, if_false, hplain, if_true]
    rcases writePlain_eq (shortest style.tie code) with
      ⟨whole, fraction, htext, hwhole, hfraction, hcode⟩
    refine ⟨whole, fraction, htext, hwhole, hfraction, ?_⟩
    rw [hcode]
    exact eq_of_beq (readsBack_shortest style.tie code)

/-- Every magnitude is written in this way where no exponent is ever used. -/
theorem writeMagnitude_eq (code : Nat) :
    ∃ whole fraction, canonicalFloat.writeMagnitude code = whole ++ '.' :: fraction ∧
      IsDigits whole ∧ (∀ c ∈ fraction, c.isDigit = true) ∧
      Binary64.nearestCode (Nat.ofDigitChars 10 (whole ++ fraction) 0) (10 ^ fraction.length) =
        code :=
  writeMagnitude_of_isPlain (Or.inr rfl)

/-- A finite double is written as its sign and its magnitude. -/
theorem floatText_of_isFinite {x : Binary64} (h : x.isFinite = true) :
    floatText x =
      (if x.negative then ['-'] else []) ++ canonicalFloat.writeMagnitude x.code := by
  rw [floatText, Binary64.word?, if_pos h]
  rfl

/-- A finite double without a sign is written as digits around a point, and read
    as it was written. -/
theorem readBinary64?_floatText {x : Binary64} (hfinite : x.isFinite = true)
    (hsign : x.negative = false) :
    (∃ whole fraction, floatText x = whole ++ '.' :: fraction ∧ IsDigits whole ∧
      ∀ c ∈ fraction, c.isDigit = true) ∧ readBinary64? (floatText x) = some x := by
  have htext : floatText x = canonicalFloat.writeMagnitude x.code := by
    rw [floatText_of_isFinite hfinite, hsign]
    rfl
  rcases writeMagnitude_eq x.code with ⟨whole, fraction, hwrite, hwhole, hfraction, hnearest⟩
  rw [htext, hwrite]
  refine ⟨⟨whole, fraction, rfl, hwhole, hfraction⟩, ?_⟩
  have hbound : x.code.val < Binary64.infinityCode := of_decide_eq_true hfinite
  -- The magnitude is finite, so what rounds to it is not cut off at infinity.
  have hcode : min (Binary64.nearestCode (Nat.ofDigitChars 10 (whole ++ fraction) 0)
      (10 ^ fraction.length)) Binary64.infinityCode = x.code := by
    rw [hnearest]
    exact Nat.min_eq_left (Nat.le_of_lt hbound)
  rw [readBinary64?_of_digits hwhole hfraction]
  simp only [Binary64.ofDecimal, Binary64.ofFraction, Decimal.numerator, Decimal.denominator,
    Int.toNat_neg_natCast, Int.neg_neg, Int.toNat_natCast, Nat.pow_zero, Nat.mul_one, hcode]
  rw [← hsign]

end Number

end Annotations
