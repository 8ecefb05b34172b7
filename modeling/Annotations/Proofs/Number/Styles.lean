import Annotations.Proofs.Number.ReadBack

/-!
# Numbers Are Told Apart in Every Style

Whatever the style, the text of a double determines the double, sign and all bits. A
number with a plain point is one fraction, which rounds to the magnitude. A number with
an exponent can be taken apart again: the digits in front of the `e` are those of the
shortest decimal, and the sign and digits behind it are the power of ten of the leading
digit. One form has an `e` in it and the other has not. So nothing has to be known of a
style, and it makes no difference where it draws the line between the two forms.

The characters that numbers are made of are a class of their own. It is this class that
tells where a number ends.

## Main definitions

* `isNumeric`: The characters that numbers are made of.

## Theorems

* `isNumeric_of_mem_integerText`, `FloatStyle.isNumeric_of_mem_write`: Numbers are made of
  these characters.
* `integerText_injective`: The text of an integer determines it.
* `FloatStyle.writeScientific_injective`: A decimal is determined by its digits and its
  exponent.
* `FloatStyle.write_injective`: The text of a double in a style determines it.
-/

namespace Annotations

open Text

namespace Number

/-- The characters that numbers are made of: digits, signs, the point and the mark of an
    exponent. -/
def isNumeric (c : Char) : Bool :=
  c.isDigit || ['-', '+', '.', 'e'].contains c

theorem isNumeric_iff {c : Char} :
    isNumeric c = true ↔ c.isDigit = true ∨ c ∈ ['-', '+', '.', 'e'] := by
  rw [isNumeric, Bool.or_eq_true, List.contains_iff_mem]

theorem isNumeric_of_isDigit {c : Char} (h : c.isDigit = true) : isNumeric c = true :=
  isNumeric_iff.mpr (Or.inl h)

/-- A number is determined by its digits. -/
theorem toDigits_injective {m n : Nat} (h : Nat.toDigits 10 m = Nat.toDigits 10 n) : m = n :=
  calc m
      _ = Nat.ofDigitChars 10 (Nat.toDigits 10 m) 0 := Nat.ofDigitChars_ten_toDigits.symm
      _ = Nat.ofDigitChars 10 (Nat.toDigits 10 n) 0 := by rw [h]
      _ = n := Nat.ofDigitChars_ten_toDigits

/-- Marks are left out if only digits are kept. -/
theorem filter_isDigit_append {marks digits : List Char} (hmarks : ∀ c ∈ marks, c.isDigit = false)
    (hdigits : ∀ c ∈ digits, c.isDigit = true) :
    (marks ++ digits).filter Char.isDigit = digits := by
  rw [List.filter_append, List.filter_eq_nil_iff.mpr fun c hc => by simp [hmarks c hc],
    List.filter_eq_self.mpr hdigits, List.nil_append]

/-- An integer is determined by its digits and whether there is a minus sign among the
    marks in front of them. -/
theorem eq_of_signed {a b : Int} {marks marks' : List Char}
    (hmarks : ∀ c ∈ marks, c.isDigit = false) (hmarks' : ∀ c ∈ marks', c.isDigit = false)
    (ha : '-' ∈ marks ↔ a < 0) (hb : '-' ∈ marks' ↔ b < 0)
    (h : marks ++ Nat.toDigits 10 a.natAbs = marks' ++ Nat.toDigits 10 b.natAbs) : a = b := by
  have hdigits : ∀ n, ∀ c ∈ Nat.toDigits 10 n, c.isDigit = true := fun n => (isDigits_toDigits n).2
  -- The digits are what is left without the marks, so both numbers have the same size.
  have habs : a.natAbs = b.natAbs := by
    have hkept := congrArg (List.filter Char.isDigit) h
    rw [filter_isDigit_append hmarks (hdigits _), filter_isDigit_append hmarks' (hdigits _)]
      at hkept
    exact toDigits_injective hkept
  -- A minus sign is not a digit, so it is among the marks if it is there at all.
  have hsign : '-' ∈ marks ↔ '-' ∈ marks' := by
    have hminus : ∀ n, '-' ∉ Nat.toDigits 10 n := fun n hn => by cases hdigits n '-' hn
    have hmem := congrArg ('-' ∈ ·) h
    simpa only [List.mem_append, hminus, or_false, eq_iff_iff] using hmem
  rw [ha, hb] at hsign
  omega

/-- The text of an integer determines the integer. -/
theorem integerText_injective {m n : Int64} (h : integerText m = integerText n) : m = n := by
  have hmarks : ∀ k : Int, ∀ c ∈ if k < 0 then ['-'] else [], c.isDigit = false := by
    intro k c hc
    split at hc
    · rw [List.mem_singleton.mp hc]
      rfl
    · cases hc
  have hminus : ∀ k : Int, '-' ∈ (if k < 0 then ['-'] else []) ↔ k < 0 := by
    intro k
    by_cases hk : k < 0 <;> simp [hk]
  exact Int64.toInt_inj.mp (eq_of_signed (hmarks _) (hmarks _) (hminus _) (hminus _) h)

theorem isNumeric_of_mem_integerText {n : Int64} {c : Char} (h : c ∈ integerText n) :
    isNumeric c = true := by
  rw [integerText, List.mem_append] at h
  rcases h with hsign | hdigit
  · split at hsign
    · rw [List.mem_singleton.mp hsign]
      rfl
    · cases hsign
  · exact isNumeric_of_isDigit ((isDigits_toDigits _).2 c hdigit)

namespace FloatStyle

/-- The digits of a decimal with a point behind the first one, unless there are no more. -/
def mantissa (d : Decimal) : List Char :=
  d.digits.take 1 ++ if (d.digits.drop 1).isEmpty then [] else '.' :: d.digits.drop 1

/-- The sign of an exponent. -/
def exponentMark (style : FloatStyle) (leading : Int) : List Char :=
  if leading < 0 then ['-'] else if style.plusSign then ['+'] else []

theorem writeScientific_eq (style : FloatStyle) (d : Decimal) :
    style.writeScientific d =
      mantissa d ++ 'e' :: (style.exponentMark d.leading ++ Nat.toDigits 10 d.leading.natAbs) := by
  unfold writeScientific mantissa exponentMark
  simp only [List.append_assoc, List.cons_append]

theorem mem_mantissa {d : Decimal} {c : Char} (h : c ∈ mantissa d) :
    c.isDigit = true ∨ c = '.' := by
  have hdigits : ∀ c ∈ d.digits, c.isDigit = true := (isDigits_toDigits _).2
  rw [mantissa, List.mem_append] at h
  rcases h with hfirst | hrest
  · exact Or.inl (hdigits c (List.mem_of_mem_take hfirst))
  · split at hrest
    · cases hrest
    · rcases List.mem_cons.mp hrest with rfl | hrest
      · exact Or.inr rfl
      · exact Or.inl (hdigits c (List.mem_of_mem_drop hrest))

/-- Without its point the mantissa is the digits again. -/
theorem filter_mantissa (d : Decimal) : (mantissa d).filter Char.isDigit = d.digits := by
  have hdigits : ∀ c ∈ d.digits, c.isDigit = true := (isDigits_toDigits _).2
  have hrest : (if (d.digits.drop 1).isEmpty then [] else '.' :: d.digits.drop 1).filter
      Char.isDigit = (d.digits.drop 1).filter Char.isDigit := by
    split
    · next hempty => rw [List.isEmpty_iff.mp hempty]
    · exact List.filter_cons_of_neg (by decide)
  rw [mantissa, List.filter_append, hrest, ← List.filter_append, List.take_append_drop,
    List.filter_eq_self.mpr hdigits]

theorem mem_exponentMark {style : FloatStyle} {leading : Int} {c : Char}
    (h : c ∈ style.exponentMark leading) : c = '-' ∨ c = '+' := by
  unfold exponentMark at h
  split at h
  · exact Or.inl (List.mem_singleton.mp h)
  · split at h
    · exact Or.inr (List.mem_singleton.mp h)
    · cases h

theorem minus_mem_exponentMark_iff {style : FloatStyle} {leading : Int} :
    '-' ∈ style.exponentMark leading ↔ leading < 0 := by
  unfold exponentMark
  by_cases hsign : leading < 0
  · simp [hsign]
  · cases style.plusSign <;> simp [hsign]

/-- A decimal can be told from its text with an exponent. -/
theorem writeScientific_injective {style : FloatStyle} {d e : Decimal}
    (h : style.writeScientific d = style.writeScientific e) : d = e := by
  have hmark : ∀ d, ∀ c ∈ mantissa d, (c != 'e') = true := by
    intro d c hc
    rcases mem_mantissa hc with hdigit | rfl
    · rw [bne_iff_ne]
      rintro rfl
      cases hdigit
    · rfl
  have hstop : ∀ tail : List Char, ∀ c ∈ ('e' :: tail).head?, (c != 'e') = false := by
    intro tail c hc
    cases hc
    rfl
  have hsigns : ∀ leading, ∀ c ∈ style.exponentMark leading, c.isDigit = false := by
    intro leading c hc
    rcases mem_exponentMark hc with rfl | rfl <;> rfl
  rw [writeScientific_eq, writeScientific_eq] at h
  -- The mark of the exponent is the first one, so it divides both texts alike.
  have hmantissa : mantissa d = mantissa e := by
    have hfront := congrArg (List.takeWhile (· != 'e')) h
    rwa [takeWhile_append_stop (hmark d) (hstop _), takeWhile_append_stop (hmark e) (hstop _)]
      at hfront
  rw [hmantissa, List.append_cancel_left_eq, List.cons.injEq] at h
  have hdigits : d.digits = e.digits := by
    rw [← filter_mantissa d, hmantissa, filter_mantissa]
  have hleading : d.leading = e.leading :=
    eq_of_signed (hsigns _) (hsigns _) minus_mem_exponentMark_iff minus_mem_exponentMark_iff h.2
  have hcoefficient : d.coefficient = e.coefficient := toDigits_injective hdigits
  have hexponent : d.exponent = e.exponent := by
    rw [Decimal.leading, Decimal.leading, hdigits] at hleading
    omega
  rcases d with ⟨coefficient, exponent⟩
  rcases e with ⟨coefficient', exponent'⟩
  simp only at hcoefficient hexponent
  rw [hcoefficient, hexponent]

/-- A magnitude is written as digits around a point that round to it, or as its shortest
    decimal with an exponent. -/
theorem writeMagnitude_cases (style : FloatStyle) (code : Nat) :
    (∃ whole fraction, style.writeMagnitude code = whole ++ '.' :: fraction ∧ IsDigits whole ∧
      (∀ c ∈ fraction, c.isDigit = true) ∧
      Binary64.nearestCode (Nat.ofDigitChars 10 (whole ++ fraction) 0) (10 ^ fraction.length) =
        code) ∨
    style.writeMagnitude code = style.writeScientific (shortest style.tie code) := by
  by_cases hplain : code = 0 ∨ style.isPlain (shortest style.tie code).leading = true
  · exact Or.inl (writeMagnitude_of_isPlain hplain)
  · rw [not_or] at hplain
    refine Or.inr ?_
    rw [writeMagnitude, if_neg hplain.1]
    exact if_neg hplain.2

/-- Digits around a point have no exponent. -/
theorem exponent_notMem {whole fraction : List Char} (hwhole : IsDigits whole)
    (hfraction : ∀ c ∈ fraction, c.isDigit = true) : 'e' ∉ whole ++ '.' :: fraction := by
  have hletter : ∀ cs : List Char, (∀ c ∈ cs, c.isDigit = true) → 'e' ∉ cs :=
    fun cs hcs he => by cases hcs 'e' he
  simp [hletter whole hwhole.2, hletter fraction hfraction]

theorem exponent_mem (style : FloatStyle) (d : Decimal) : 'e' ∈ style.writeScientific d := by
  rw [writeScientific_eq]
  exact List.mem_append_right _ List.mem_cons_self

/-- The text of a magnitude in a style determines the magnitude. -/
theorem writeMagnitude_injective {style : FloatStyle} {a b : Nat}
    (h : style.writeMagnitude a = style.writeMagnitude b) : a = b := by
  rcases writeMagnitude_cases style a with ⟨whole, fraction, ha, hwhole, hfraction, hcode⟩ | ha
  · rcases writeMagnitude_cases style b with
      ⟨whole', fraction', hb, hwhole', hfraction', hcode'⟩ | hb
    · -- The point divides both texts alike.
      have hpoint : ∀ tail : List Char, ∀ c ∈ ('.' :: tail).head?, c.isDigit = false := by
        intro tail c hc
        cases hc
        rfl
      rw [ha, hb] at h
      have hfront := congrArg (List.takeWhile Char.isDigit) h
      rw [takeWhile_append_stop hwhole.2 (hpoint _), takeWhile_append_stop hwhole'.2 (hpoint _)]
        at hfront
      rw [hfront, List.append_cancel_left_eq, List.cons.injEq] at h
      rw [← hcode, ← hcode', hfront, h.2]
    · have hnone := exponent_notMem hwhole hfraction
      rw [← ha, h, hb] at hnone
      exact absurd (exponent_mem style _) hnone
  · rcases writeMagnitude_cases style b with
      ⟨whole', fraction', hb, hwhole', hfraction', hcode'⟩ | hb
    · have hnone := exponent_notMem hwhole' hfraction'
      rw [← hb, ← h, ha] at hnone
      exact absurd (exponent_mem style _) hnone
    · -- The two magnitudes have one shortest decimal, and it reads back as both.
      have hdecimal : shortest style.tie a = shortest style.tie b :=
        writeScientific_injective (by rw [← ha, h, hb])
      have hread := eq_of_beq (readsBack_shortest style.tie a)
      have hread' := eq_of_beq (readsBack_shortest style.tie b)
      rw [← hread, hdecimal, hread']

/-- A magnitude starts with a digit. -/
theorem exists_digit (style : FloatStyle) (code : Nat) :
    ∃ c tail, style.writeMagnitude code = c :: tail ∧ c.isDigit = true := by
  rcases writeMagnitude_cases style code with ⟨whole, fraction, htext, hwhole, -, -⟩ | htext
  · rcases whole with _ | ⟨c, whole⟩
    · exact absurd rfl hwhole.1
    · exact ⟨c, whole ++ '.' :: fraction, htext, hwhole.2 c List.mem_cons_self⟩
  · rw [htext, writeScientific_eq, mantissa]
    have hdigits : IsDigits (shortest style.tie code).digits := isDigits_toDigits _
    generalize (shortest style.tie code).digits = digits at hdigits ⊢
    rcases digits with _ | ⟨c, digits⟩
    · exact absurd rfl hdigits.1
    · exact ⟨c, _, rfl, hdigits.2 c List.mem_cons_self⟩

/-- The text of a double in a style determines the double. -/
theorem write_injective {style : FloatStyle} {x y : Binary64} (h : style.write x = style.write y) :
    x = y := by
  have hfirst : ∀ code, ∀ rest, style.writeMagnitude code ≠ '-' :: rest := by
    intro code rest hminus
    rcases exists_digit style code with ⟨c, tail, htext, hdigit⟩
    rw [htext, List.cons.injEq] at hminus
    rw [hminus.1] at hdigit
    cases hdigit
  rcases x with ⟨negative, code⟩
  rcases y with ⟨negative', code'⟩
  -- A minus sign in front is the sign of the number, since no magnitude starts with one.
  cases negative with
  | true =>
      cases negative' with
      | true => exact congrArg _ (Fin.ext (writeMagnitude_injective (List.cons.inj h).2))
      | false => exact absurd h.symm (hfirst _ _)
  | false =>
      cases negative' with
      | true => exact absurd h (hfirst _ _)
      | false => exact congrArg _ (Fin.ext (writeMagnitude_injective h))

theorem isNumeric_of_mem_write {style : FloatStyle} {x : Binary64} {c : Char}
    (h : c ∈ style.write x) : isNumeric c = true := by
  have hdigits : ∀ cs : List Char, (∀ c ∈ cs, c.isDigit = true) → ∀ c ∈ cs, isNumeric c = true :=
    fun cs hcs c hc => isNumeric_of_isDigit (hcs c hc)
  rw [write, List.mem_append] at h
  rcases h with hsign | hmagnitude
  · split at hsign
    · rw [List.mem_singleton.mp hsign]
      rfl
    · cases hsign
  · rcases writeMagnitude_cases style x.code with
      ⟨whole, fraction, htext, hwhole, hfraction, -⟩ | htext
    · rw [htext, List.mem_append, List.mem_cons] at hmagnitude
      rcases hmagnitude with hc | rfl | hc
      · exact hdigits whole hwhole.2 c hc
      · rfl
      · exact hdigits fraction hfraction c hc
    · rw [htext, writeScientific_eq, List.mem_append, List.mem_cons, List.mem_append] at hmagnitude
      rcases hmagnitude with hc | rfl | hc | hc
      · rcases mem_mantissa hc with hdigit | rfl
        · exact isNumeric_of_isDigit hdigit
        · rfl
      · rfl
      · rcases mem_exponentMark hc with rfl | rfl <;> rfl
      · exact hdigits _ (isDigits_toDigits _).2 c hc

end FloatStyle

end Number

end Annotations
