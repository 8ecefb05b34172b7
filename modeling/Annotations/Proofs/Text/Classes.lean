import Annotations.Token.Scan
import Mathlib.Data.List.Chain
import Mathlib.Data.List.TakeWhile
import Mathlib.Tactic.Common

/-!
# Separate Character Classes

Which classes of characters have no member in common. The scanner asks for the
class of a character in a fixed order, and the facts of this module are what
makes that order irrelevant: whoever knows one class of a character knows that
the other tests fail.

The tables of letters, numerals and white space are lists of code point ranges,
some of them hundreds of ranges long, and comparing every range of one table
with every range of another takes too long. All tables are sorted, so one sweep
over both at once is enough: `sweep` drops the ranges that the next range of
the other table has passed, and looks only at the first one that is left.

The ASCII symbols are a class of their own here. Quotes, brackets and the other
marks of the syntax are all among them, so that one comparison of tables settles
every question about a mark.

## Main definitions

* `Sorted`: Ranges in the order of their first code points.
* `sweep`: Two sorted lists of ranges have no code point in common.
* `isSymbol`: The ASCII characters that belong to none of the other classes.
* `Separate`: Two tables in order that a sweep separates.

## Theorems

* `not_inRanges_of_sweep`: A sweep that succeeds separates the two classes.
* `not_of_isBlank`, `not_of_isSymbol`: White space and symbols are in none of the
  other classes.
* `isWordStart_iff`: What starts a word is what goes on with it, numerals aside.
* `not_isWordPart_of_isSymbol`, `not_isWordPart_of_isBlank`: Both of them end a word.
* `not_isWordStart_of_isDigit`: A digit starts no word.
-/

namespace Annotations

namespace Text

/-- Ranges in the order of their first code points. -/
def Sorted (ranges : List CodeRange) : Prop :=
  ranges.IsChain fun r s => r.first ≤ s.first

instance (ranges : List CodeRange) : Decidable (Sorted ranges) :=
  inferInstanceAs (Decidable (ranges.IsChain _))

theorem Sorted.pairwise {ranges : List CodeRange} (h : Sorted ranges) :
    ranges.Pairwise fun r s => r.first ≤ s.first := by
  have htrans : Trans (fun r s : CodeRange => r.first ≤ s.first)
      (fun r s : CodeRange => r.first ≤ s.first)
      (fun r s : CodeRange => r.first ≤ s.first) := ⟨Nat.le_trans⟩
  exact List.isChain_iff_pairwise.mp h

/-- Two sorted lists of ranges have no code point in common. The ranges of the
    second list that lie below the first range of the other are passed for good. -/
def sweep : List CodeRange → List CodeRange → Bool
  | [], _ => true
  | r :: rs, ss =>
    let later := ss.dropWhile fun s => Nat.blt s.last r.first
    later.head?.all (fun s => Nat.blt r.last s.first) && sweep rs later

/-- A sweep that succeeds separates the two classes. -/
theorem not_inRanges_of_sweep {rs ss : List CodeRange} (hrs : Sorted rs) (hss : Sorted ss)
    (h : sweep rs ss = true) {c : Char} (hc : inRanges rs c = true) : inRanges ss c = false := by
  replace hrs := hrs.pairwise
  replace hss := hss.pairwise
  -- The invariant of the sweep: the ranges dropped so far are below all that is left.
  induction rs generalizing ss with
  | nil => simp [inRanges] at hc
  | cons r rs ih =>
      simp only [sweep, Bool.and_eq_true] at h
      obtain ⟨hhead, hrest⟩ := h
      set later := ss.dropWhile fun s => Nat.blt s.last r.first with hlater
      have hsplit : ss.takeWhile (fun s => Nat.blt s.last r.first) ++ later = ss :=
        List.takeWhile_append_dropWhile
      have hsorted : later.Pairwise fun r s => r.first ≤ s.first :=
        hss.sublist (List.dropWhile_sublist _)
      rw [List.pairwise_cons] at hrs
      simp only [inRanges, List.any_cons, Bool.or_eq_true] at hc
      -- Whichever range holds the character, it starts no earlier than `r`.
      have hfrom : r.first ≤ c.toNat := by
        rcases hc with hr | hlow
        · simp only [CodeRange.contains, Bool.and_eq_true, decide_eq_true_eq] at hr
          exact hr.1
        · rcases List.any_eq_true.mp hlow with ⟨s, hs, hsc⟩
          simp only [CodeRange.contains, Bool.and_eq_true, decide_eq_true_eq] at hsc
          exact Nat.le_trans (hrs.1 s hs) hsc.1
      have hdropped : inRanges (ss.takeWhile fun s => Nat.blt s.last r.first) c = false := by
        refine List.any_eq_false.mpr (fun s hs => ?_)
        have hbelow := List.mem_takeWhile_imp hs
        simp only [Nat.blt_eq] at hbelow
        simp only [CodeRange.contains, Bool.and_eq_true, decide_eq_true_eq]
        omega
      have hkept : inRanges later c = false := by
        rcases hc with hr | hlow
        · -- The first range left starts behind `r`, and the others no earlier.
          refine List.any_eq_false.mpr (fun s hs => ?_)
          simp only [CodeRange.contains, Bool.and_eq_true, decide_eq_true_eq] at hr ⊢
          rcases hl : later with _ | ⟨first, others⟩
          · rw [hl] at hs
            exact absurd hs List.not_mem_nil
          · rw [hl] at hs hhead hsorted
            simp only [List.head?_cons, Option.all_some, Nat.blt_eq] at hhead
            rw [List.pairwise_cons] at hsorted
            rcases List.mem_cons.mp hs with heq | hmem
            · rw [heq]
              omega
            · have := hsorted.1 s hmem
              omega
        · exact ih hrest hlow hrs.2 hsorted
      rw [← hsplit, inRanges, List.any_append, Bool.or_eq_false_iff]
      exact ⟨hdropped, hkept⟩

/-- The ASCII digits. -/
def digitRanges : List CodeRange :=
  [⟨0x0030, 0x0039⟩]

/-- The ASCII characters that are visible and neither letters, digits nor the
    underscore. -/
def symbolRanges : List CodeRange :=
  [⟨0x0021, 0x002F⟩, ⟨0x003A, 0x0040⟩, ⟨0x005B, 0x005E⟩, ⟨0x0060, 0x0060⟩, ⟨0x007B, 0x007E⟩]

/-- An ASCII symbol. -/
def isSymbol (c : Char) : Bool :=
  inRanges symbolRanges c

/-- Two tables in order that a sweep separates. -/
def Separate (rs ss : List CodeRange) : Prop :=
  Sorted rs ∧ Sorted ss ∧ sweep rs ss = true

instance (rs ss : List CodeRange) : Decidable (Separate rs ss) :=
  inferInstanceAs (Decidable (_ ∧ _ ∧ _))

theorem Separate.not_inRanges {rs ss : List CodeRange} (h : Separate rs ss) {c : Char}
    (hc : inRanges rs c = true) : inRanges ss c = false :=
  not_inRanges_of_sweep h.1 h.2.1 h.2.2 hc

/-- The tables that are compared, all in one evaluation. -/
theorem separate_tables :
    Separate numeralRanges letterRanges ∧ Separate digitRanges letterRanges ∧
    (Separate blankRanges letterRanges ∧ Separate blankRanges numeralRanges ∧
      Separate blankRanges digitRanges) ∧
    (Separate symbolRanges letterRanges ∧ Separate symbolRanges numeralRanges ∧
      Separate symbolRanges digitRanges ∧ Separate symbolRanges blankRanges) := by
  decide +kernel

theorem isDigit_eq_inRanges (c : Char) : c.isDigit = inRanges digitRanges c := by
  simp only [Char.isDigit, inRanges, digitRanges, CodeRange.contains, List.any_cons, List.any_nil,
    Bool.or_false, Char.toNat, ge_iff_le, UInt32.le_iff_toNat_le]
  rfl

theorem not_isLetter_of_isNumeral {c : Char} (h : isNumeral c = true) : isLetter c = false :=
  separate_tables.1.not_inRanges h

theorem not_isLetter_of_isDigit {c : Char} (h : c.isDigit = true) : isLetter c = false := by
  rw [isDigit_eq_inRanges] at h
  exact separate_tables.2.1.not_inRanges h

/-- White space is in none of the classes of words and numbers. -/
theorem not_of_isBlank {c : Char} (h : isBlank c = true) :
    isLetter c = false ∧ isNumeral c = false ∧ c.isDigit = false := by
  rcases separate_tables.2.2.1 with ⟨hletter, hnumeral, hdigit⟩
  rw [isDigit_eq_inRanges]
  exact ⟨hletter.not_inRanges h, hnumeral.not_inRanges h, hdigit.not_inRanges h⟩

/-- A symbol is in none of the other classes. -/
theorem not_of_isSymbol {c : Char} (h : isSymbol c = true) :
    isLetter c = false ∧ isNumeral c = false ∧ c.isDigit = false ∧ isBlank c = false := by
  rcases separate_tables.2.2.2 with ⟨hletter, hnumeral, hdigit, hblank⟩
  rw [isDigit_eq_inRanges]
  exact ⟨hletter.not_inRanges h, hnumeral.not_inRanges h, hdigit.not_inRanges h,
    hblank.not_inRanges h⟩

theorem not_isDigit_of_isBlank {c : Char} (h : isBlank c = true) : c.isDigit = false :=
  (not_of_isBlank h).2.2

theorem not_isDigit_of_isSymbol {c : Char} (h : isSymbol c = true) : c.isDigit = false :=
  (not_of_isSymbol h).2.2.1

theorem not_isBlank_of_isSymbol {c : Char} (h : isSymbol c = true) : isBlank c = false :=
  (not_of_isSymbol h).2.2.2

end Text

open Text

/-- What starts a word is what goes on with it, numerals aside. -/
theorem isWordStart_iff (c : Char) :
    isWordStart c = true ↔ isWordPart c = true ∧ isNumeral c = false := by
  have hunderscore : isNumeral '_' = false := rfl
  constructor
  · intro h
    simp only [isWordStart, Bool.or_eq_true, beq_iff_eq] at h
    rcases h with hletter | rfl
    · refine ⟨by simp only [isWordPart, hletter, Bool.true_or], ?_⟩
      by_contra hnum
      rw [not_isLetter_of_isNumeral (eq_true_of_ne_false hnum)] at hletter
      exact Bool.false_ne_true hletter
    · exact ⟨by simp only [isWordPart, beq_self_eq_true, Bool.or_true], hunderscore⟩
  · rintro ⟨hpart, hnum⟩
    simpa only [isWordPart, isWordStart, hnum, Bool.or_false] using hpart

theorem isWordPart_of_isWordStart {c : Char} (h : isWordStart c = true) : isWordPart c = true :=
  ((isWordStart_iff c).mp h).1

/-- What does not go on with a word does not start one either. -/
theorem not_isWordStart_of_not_isWordPart {c : Char} (h : isWordPart c = false) :
    isWordStart c = false := by
  by_contra hstart
  rw [isWordPart_of_isWordStart (eq_true_of_ne_false hstart)] at h
  exact Bool.false_ne_true h.symm

/-- A symbol ends a word. -/
theorem not_isWordPart_of_isSymbol {c : Char} (h : isSymbol c = true) : isWordPart c = false := by
  have hne : c ≠ '_' := by
    rintro rfl
    exact absurd h (by decide)
  simp only [isWordPart, (not_of_isSymbol h).1, (not_of_isSymbol h).2.1, Bool.false_or,
    beq_eq_false_iff_ne.mpr hne]

/-- White space ends a word. -/
theorem not_isWordPart_of_isBlank {c : Char} (h : isBlank c = true) : isWordPart c = false := by
  have hne : c ≠ '_' := by
    rintro rfl
    exact absurd h (by decide)
  simp only [isWordPart, (not_of_isBlank h).1, (not_of_isBlank h).2.1, Bool.false_or,
    beq_eq_false_iff_ne.mpr hne]

/-- A digit starts no word. -/
theorem not_isWordStart_of_isDigit {c : Char} (h : c.isDigit = true) : isWordStart c = false := by
  have hne : c ≠ '_' := by
    rintro rfl
    exact absurd h (by decide)
  simp only [isWordStart, not_isLetter_of_isDigit h, Bool.false_or, beq_eq_false_iff_ne.mpr hne]

end Annotations
