import Annotations.Text.Blank
import Annotations.Text.Line
import Mathlib.Data.List.DropRight
import Mathlib.Tactic.Common

/-!
# Places in a Text

Where an offset falls, said by what stands before it and after it. A text that is
parted at an offset is `before ++ after`, and then the line of the offset is the end
of `before` since its last line feed, and `after` up to and including its first one.
The number of the line and the column are counts in `before`.

The lines of a text are found by a run over the whole of it, so the run is followed
to the place: it passes the lines that have ended before, one for each line feed, and
then meets the line that goes on across the place. At the end of a text there may be
no such line, and the place is after the last one.

White space at the end of a text is the other thing that is asked about here. What is
left of two texts after trimming depends on whether the second is all white space.

## Main definitions

* `lineBefore`, `lineAfter`: What a line has on either side of a place.
* `Ended`: A text in which every line has ended.

## Theorems

* `trimEnd_append_of_blank`, `trimEnd_append`: The end of two texts.
* `linesWithEnds_append`, `linesWithEnds_across`: Lines that have ended, and the one that
  goes on.
* `locate_across`: An offset on a character, be it inside of it.
* `column_locate_le`: A column is not greater than the text is long.
* `locate_append`: Where an offset falls.
-/

namespace Annotations

namespace Text

theorem trimEnd_eq_nil_iff {cs : List Char} : trimEnd cs = [] ↔ ∀ c ∈ cs, isBlank c = true :=
  List.rdropWhile_eq_nil_iff

/-- White space at the end of a text is trimmed. -/
theorem trimEnd_append_of_blank (a : List Char) {b : List Char}
    (hb : ∀ c ∈ b, isBlank c = true) : trimEnd (a ++ b) = trimEnd a := by
  unfold trimEnd
  rw [List.reverse_append, List.dropWhile_append_of_pos]
  intro c hc
  exact hb c (List.mem_reverse.mp hc)

/-- What is not white space keeps everything before it. -/
theorem trimEnd_append (a : List Char) {b : List Char} (hb : trimEnd b ≠ []) :
    trimEnd (a ++ b) = a ++ trimEnd b := by
  have hne : (b.reverse.dropWhile isBlank).isEmpty = false := by
    rw [List.isEmpty_eq_false_iff]
    intro hnil
    apply hb
    rw [trimEnd, hnil, List.reverse_nil]
  unfold trimEnd
  rw [List.reverse_append, List.dropWhile_append, hne]
  simp

/-- A text is its trimmed form with white space behind it. -/
theorem exists_trimEnd_append (cs : List Char) :
    ∃ w, cs = trimEnd cs ++ w ∧ ∀ c ∈ w, isBlank c = true := by
  refine ⟨cs.rtakeWhile isBlank, List.rdropWhile_append_rtakeWhile.symm, ?_⟩
  intro c hc
  exact List.mem_rtakeWhile_imp hc

theorem trimEnd_sublist (cs : List Char) : List.Sublist (trimEnd cs) cs := by
  rcases exists_trimEnd_append cs with ⟨w, hcs, -⟩
  conv => rhs; rw [hcs]
  exact List.sublist_append_left _ w

theorem head?_trimEnd {cs : List Char} (h : trimEnd cs ≠ []) : (trimEnd cs).head? = cs.head? := by
  rcases exists_trimEnd_append cs with ⟨w, hcs, -⟩
  conv => rhs; rw [hcs, List.head?_append_of_ne_nil _ h]

theorem trimEnd_trimEnd (cs : List Char) : trimEnd (trimEnd cs) = trimEnd cs := by
  rcases exists_trimEnd_append cs with ⟨w, hcs, hw⟩
  conv => rhs; rw [hcs, trimEnd_append_of_blank _ hw]

/-- The end of a text since its last line feed. -/
def lineBefore (before : List Char) : List Char :=
  (before.reverse.takeWhile (· ≠ '\n')).reverse

/-- The start of a text up to and including its first line feed. -/
def lineAfter : List Char → List Char
  | [] => []
  | c :: cs => if c = '\n' then [c] else c :: lineAfter cs

/-- Every line of the text has ended. -/
def Ended (cs : List Char) : Prop :=
  ∀ c ∈ cs.getLast?, c = '\n'

theorem notMem_lineBefore (before : List Char) : '\n' ∉ lineBefore before := by
  intro hmem
  have hne := List.mem_takeWhile_imp (List.mem_reverse.mp hmem)
  simp at hne

theorem ne_lineFeed_of_mem_reverse {x : List Char} (h : '\n' ∉ x) :
    ∀ c ∈ x.reverse, decide (c ≠ '\n') = true := by
  intro c hc
  exact decide_eq_true fun hfeed => h (hfeed ▸ List.mem_reverse.mp hc)

/-- A text without line feed has not been broken since it started. -/
theorem lineBefore_of_notMem {x : List Char} (h : '\n' ∉ x) : lineBefore x = x := by
  rw [lineBefore, List.takeWhile_eq_self_iff.mpr (ne_lineFeed_of_mem_reverse h),
    List.reverse_reverse]

/-- The last character of a text is on its last line, unless it ends that line. -/
theorem mem_lineBefore {before : List Char} {c : Char} (hlast : c ∈ before.getLast?)
    (hc : c ≠ '\n') : c ∈ lineBefore before := by
  rcases List.getLast?_eq_some_iff.mp hlast with ⟨front, rfl⟩
  simp [lineBefore, hc]

/-- A text has the lines that have ended, and then the one that has not. -/
theorem exists_ended_append (before : List Char) :
    ∃ ended, before = ended ++ lineBefore before ∧ Ended ended := by
  refine ⟨(before.reverse.dropWhile (· ≠ '\n')).reverse, ?_, ?_⟩
  · rw [lineBefore, ← List.reverse_append, List.takeWhile_append_dropWhile, List.reverse_reverse]
  · intro c hc
    rw [List.getLast?_reverse] at hc
    have hstop := List.head?_dropWhile_not (· ≠ '\n') before.reverse
    rw [hc] at hstop
    simpa using hstop

theorem head?_lineAfter (after : List Char) : (lineAfter after).head? = after.head? := by
  rcases after with _ | ⟨c, cs⟩
  · rfl
  · unfold lineAfter
    split <;> rfl

/-- A line has at most one line feed, at its end. -/
theorem exists_lineAfter_eq (after : List Char) :
    ∃ cs ending, lineAfter after = cs ++ ending ∧ '\n' ∉ cs ∧ ∀ c ∈ ending, c = '\n' := by
  induction after with
  | nil => exact ⟨[], [], rfl, List.not_mem_nil, by simp⟩
  | cons c after ih =>
      by_cases hc : c = '\n'
      · exact ⟨[], [c], by simp [lineAfter, hc], List.not_mem_nil, by simp [hc]⟩
      · rcases ih with ⟨cs, ending, hline, hcs, hending⟩
        refine ⟨c :: cs, ending, by simp [lineAfter, hc, hline], ?_, hending⟩
        simp [hcs, Ne.symm hc]

/-- What is after a place up to the next line feed has its first character. -/
theorem utf8Size_le_byteLength_lineAfter (c : Char) (cs : List Char) :
    c.utf8Size ≤ byteLength (lineAfter (c :: cs)) := by
  unfold lineAfter
  split <;> rw [byteLength_cons] <;> omega

theorem linesWithEnds_ne_nil {cs : List Char} (h : cs ≠ []) : linesWithEnds cs ≠ [] := by
  intro hnil
  apply h
  rw [← flatten_linesWithEnds cs, hnil, List.flatten_nil]

theorem Ended.of_cons {c : Char} {cs : List Char} (h : Ended (c :: cs)) : Ended cs :=
  fun d hd => h d (List.mem_getLast?_cons hd)

/-- In a text in which every line has ended, a line that has started goes on. -/
theorem Ended.exists_linesWithEnds {c : Char} {cs : List Char} (h : Ended (c :: cs))
    (hc : c ≠ '\n') : ∃ line lines, linesWithEnds cs = line :: lines := by
  rcases cs with _ | ⟨d, cs⟩
  · exact absurd (h c rfl) hc
  · exact List.exists_cons_of_ne_nil (linesWithEnds_ne_nil (List.cons_ne_nil d cs))

/-- Lines that have ended come first, and what follows them is cut into lines by
    itself. -/
theorem linesWithEnds_append {ended : List Char} (hended : Ended ended) (cs : List Char) :
    linesWithEnds (ended ++ cs) = linesWithEnds ended ++ linesWithEnds cs := by
  induction ended with
  | nil => rfl
  | cons c ended ih =>
      have hrest := ih hended.of_cons
      rw [List.cons_append]
      by_cases hc : c = '\n'
      · simp only [linesWithEnds, if_pos hc, hrest, List.cons_append]
      · rcases hended.exists_linesWithEnds hc with ⟨line, lines, hlines⟩
        rw [hlines, List.cons_append] at hrest
        simp only [linesWithEnds, if_neg hc, hrest, hlines, List.cons_append]

/-- There are as many lines that have ended as line feeds. -/
theorem length_linesWithEnds {ended : List Char} (hended : Ended ended) :
    (linesWithEnds ended).length = ended.count '\n' := by
  induction ended with
  | nil => rfl
  | cons c ended ih =>
      have hrest := ih hended.of_cons
      by_cases hc : c = '\n'
      · rw [linesWithEnds, if_pos hc, List.length_cons, hrest, hc, List.count_cons_self]
      · rcases hended.exists_linesWithEnds hc with ⟨line, lines, hlines⟩
        rw [hlines, List.length_cons] at hrest
        simp only [linesWithEnds, if_neg hc, hlines, List.length_cons, hrest,
          List.count_cons_of_ne hc]

/-- The line feeds of a text are those of the lines that have ended. -/
theorem count_eq_length_linesWithEnds {before ended : List Char}
    (hbefore : before = ended ++ lineBefore before) (hended : Ended ended) :
    before.count '\n' = (linesWithEnds ended).length := by
  rw [length_linesWithEnds hended]
  conv => lhs; rw [hbefore]
  rw [List.count_append, List.count_eq_zero.mpr (notMem_lineBefore before), Nat.add_zero]

/-- A text without line feed is the start of the line that goes on behind it. -/
theorem linesWithEnds_across {x after : List Char} (hx : '\n' ∉ x) (hafter : after ≠ []) :
    ∃ lines, linesWithEnds (x ++ after) = (x ++ lineAfter after) :: lines := by
  induction x with
  | nil =>
      rw [List.nil_append, List.nil_append]
      induction after with
      | nil => exact absurd rfl hafter
      | cons c cs ih =>
          by_cases hc : c = '\n'
          · exact ⟨linesWithEnds cs, by simp only [linesWithEnds, lineAfter, if_pos hc]⟩
          · rw [linesWithEnds, if_neg hc, lineAfter, if_neg hc]
            rcases cs with _ | ⟨d, cs⟩
            · exact ⟨[], rfl⟩
            · rcases ih (List.cons_ne_nil d cs) with ⟨lines, hlines⟩
              exact ⟨lines, by rw [hlines]⟩
  | cons c x ih =>
      have hc : c ≠ '\n' := by
        intro hc
        exact hx (by simp [hc])
      rcases ih (fun hmem => hx (List.mem_cons_of_mem c hmem)) with ⟨lines, hlines⟩
      exact ⟨lines, by rw [List.cons_append, linesWithEnds, if_neg hc, hlines]; rfl⟩

/-- Lines that end before an offset are passed. -/
theorem locateIn_append (ended lines : List (List Char)) (number offset : Nat) :
    locateIn number (byteLength ended.flatten + offset) (ended ++ lines) =
      locateIn (number + ended.length) offset lines := by
  induction ended generalizing number with
  | nil => simp
  | cons line ended ih =>
      rw [List.cons_append, locateIn, List.flatten_cons, byteLength_append, if_neg (by omega),
        show byteLength line + byteLength ended.flatten + offset - byteLength line =
          byteLength ended.flatten + offset by omega, ih, List.length_cons]
      congr 1
      omega

/-- The characters of a first part all start before an offset behind it. -/
theorem charsBefore_append (x y : List Char) (n : Nat) :
    charsBefore (byteLength x + n) (x ++ y) = x.length + charsBefore n y := by
  induction x with
  | nil => rw [byteLength_nil, Nat.zero_add, List.nil_append, List.length_nil, Nat.zero_add]
  | cons c x ih =>
      have hpos := c.utf8Size_pos
      rcases hm : byteLength (c :: x) + n with _ | m
      · rw [byteLength_cons] at hm
        omega
      · have hrest : m + 1 - c.utf8Size = byteLength x + n := by
          rw [← hm, byteLength_cons]
          omega
        rw [List.cons_append, charsBefore, hrest, ih, List.length_cons]
        omega

theorem charsBefore_zero (cs : List Char) : charsBefore 0 cs = 0 := by
  unfold charsBefore
  rfl

theorem charsBefore_le_length (n : Nat) (cs : List Char) : charsBefore n cs ≤ cs.length := by
  induction cs generalizing n with
  | nil => cases n <;> exact Nat.le_refl _
  | cons c cs ih =>
      rcases n with _ | n
      · exact Nat.zero_le _
      · exact Nat.succ_le_succ (ih _)

theorem column_le_of_locateIn {number offset : Nat} {lines : List (List Char)} {place : Location}
    (h : locateIn number offset lines = some place) : place.column ≤ lines.flatten.length := by
  induction lines generalizing number offset with
  | nil => cases h
  | cons line lines ih =>
      rw [List.flatten_cons, List.length_append]
      rw [locateIn] at h
      split at h
      · cases h
        exact Nat.le_trans (charsBefore_le_length offset line) (Nat.le_add_right _ _)
      · exact Nat.le_trans (ih h) (Nat.le_add_left _ _)

/-- A column is not greater than the text is long. -/
theorem column_locate_le (cs : List Char) (offset : Nat) :
    (locate cs offset).column ≤ cs.length := by
  unfold locate
  cases hfound : locateIn 1 offset (linesWithEnds cs) with
  | none =>
      have hlast := (List.takeWhile_sublist (· ≠ '\n') : List.Sublist _ cs.reverse).length_le
      simpa [endLocation] using hlast
  | some place =>
      have hcolumn := column_le_of_locateIn hfound
      rw [flatten_linesWithEnds] at hcolumn
      exact hcolumn

/-- No line holds an offset at the end of a text or behind it. -/
theorem locate_of_byteLength_le {cs : List Char} {offset : Nat} (h : byteLength cs ≤ offset) :
    locate cs offset = ⟨cs.count '\n' + 1, lineBefore cs, (lineBefore cs).length⟩ := by
  have hnone := locateIn_append (linesWithEnds cs) [] 1 (offset - byteLength cs)
  rw [flatten_linesWithEnds, List.append_nil, Nat.add_sub_cancel' h] at hnone
  unfold locate
  rw [hnone]
  rfl

/-- An offset on a character, be it inside of it, is held by the line of the character:
    the lines that have ended before are passed. -/
theorem locate_across (before : List Char) {c : Char} (after : List Char) {n : Nat}
    (hn : n < c.utf8Size) :
    locate (before ++ c :: after) (byteLength before + n) =
      ⟨before.count '\n' + 1, lineBefore before ++ lineAfter (c :: after),
        (lineBefore before).length + charsBefore n (lineAfter (c :: after))⟩ := by
  have hafter : c :: after ≠ [] := List.cons_ne_nil c after
  rcases exists_ended_append before with ⟨ended, hbefore, hended⟩
  rcases linesWithEnds_across (notMem_lineBefore before) hafter with ⟨lines, hlines⟩
  have hcount := count_eq_length_linesWithEnds hbefore hended
  have hpassed := locateIn_append (linesWithEnds ended)
    (linesWithEnds (lineBefore before ++ c :: after)) 1 (byteLength (lineBefore before) + n)
  rw [flatten_linesWithEnds, ← Nat.add_assoc, ← byteLength_append, ← hbefore,
    ← linesWithEnds_append hended, ← List.append_assoc, ← hbefore] at hpassed
  have hholds : byteLength (lineBefore before) + n <
      byteLength (lineBefore before ++ lineAfter (c :: after)) := by
    have hsize := utf8Size_le_byteLength_lineAfter c after
    rw [byteLength_append]
    omega
  unfold locate
  rw [hpassed, hlines, locateIn, if_pos hholds, charsBefore_append, hcount, Nat.add_comm]
  rfl

/-- Where an offset falls: its line has the end of what is before since the last line
    feed and what is after up to the next one. -/
theorem locate_append (before after : List Char) :
    locate (before ++ after) (byteLength before) =
      ⟨before.count '\n' + 1, lineBefore before ++ lineAfter after, (lineBefore before).length⟩ := by
  rcases after with _ | ⟨c, after⟩
  · rw [List.append_nil, locate_of_byteLength_le (Nat.le_refl _), lineAfter, List.append_nil]
  · have hacross := locate_across before after c.utf8Size_pos
    simpa only [Nat.add_zero, charsBefore_zero] using hacross

end Text

end Annotations
