import Annotations.Proofs.Text.Places
import Mathlib.Algebra.GroupWithZero.Nat

/-!
# Lines and Columns Told by Bytes

The location of an offset once more, for every offset and in terms of bytes alone. A
character is at the offset of its first byte, and a line feed is one byte. The line of
an offset starts behind the last line feed before it and stops behind the next one,
and its column is how many characters start in between.

`locate` finds this in two ways. It runs over the lines to the one that holds the
offset, and at the end of the text it looks back instead, because no line holds that
offset. Neither of them counts bytes of the whole text, so the two descriptions have
nothing in common but the text.

The bridge is to part the text at the offset: the characters that start before it, and
those that do not. If the offset is between two characters, its location is known from
these parts. Otherwise it is inside the last character of the first part, which takes
more than one byte and is no line feed; so the line is the same as that of the first
byte of this character, and the column is one more.

## Main definitions

* `placed`: The characters of a text with their offsets.
* `slice`, `lineFeeds`: What is found between two offsets, and where lines end.
* `lineStart`, `lineStop`: The first byte of the line of an offset, and the one behind it.
* `PartedAt`: A text is parted at an offset.

## Theorems

* `exists_partedAt`: Every text is parted at every offset.
* `PartedAt.lineStart_eq`, `PartedAt.lineStop_eq`: The ends of the line.
* `PartedAt.locate_eq`: The location, from what the parts are made of.
* `locate_by_bytes`: The location, from byte offsets.
-/

namespace Annotations

namespace Text

/-- The characters of a text that starts at an offset, each with the offset of its first
    byte. -/
def placedFrom (offset : Nat) : List Char → List (Nat × Char)
  | [] => []
  | c :: cs => (offset, c) :: placedFrom (offset + c.utf8Size) cs

/-- The characters of a text, each with the offset of its first byte. -/
def placed (cs : List Char) : List (Nat × Char) :=
  placedFrom 0 cs

/-- The characters whose first byte is at one of the offsets from `start` up to `stop`. -/
def slice (cs : List Char) (start stop : Nat) : List Char :=
  ((placed cs).filter fun p => start ≤ p.1 ∧ p.1 < stop).map Prod.snd

/-- The offsets of the line feeds in a text that starts at an offset. -/
def lineFeedsFrom (offset : Nat) (cs : List Char) : List Nat :=
  ((placedFrom offset cs).filter fun p => p.2 = '\n').map Prod.fst

/-- The offsets of the line feeds in a text. -/
def lineFeeds (cs : List Char) : List Nat :=
  lineFeedsFrom 0 cs

/-- The offset just behind the last line feed before an offset, or zero if there is none. -/
def lineStart (cs : List Char) (offset : Nat) : Nat :=
  ((lineFeeds cs).filter (· < offset)).getLast?.elim 0 (· + 1)

/-- The offset just behind the first line feed at an offset or after it, or the end of the
    text if there is none. -/
def lineStop (cs : List Char) (offset : Nat) : Nat :=
  ((lineFeeds cs).find? (offset ≤ ·)).elim (byteLength cs) (· + 1)

theorem utf8Size_lineFeed : '\n'.utf8Size = 1 := rfl

theorem placedFrom_append (n : Nat) (a b : List Char) :
    placedFrom n (a ++ b) = placedFrom n a ++ placedFrom (n + byteLength a) b := by
  induction a generalizing n with
  | nil => rfl
  | cons c a ih =>
      rw [List.cons_append, placedFrom, placedFrom, ih, byteLength_cons, List.cons_append,
        Nat.add_assoc]

theorem map_snd_placedFrom (n : Nat) (cs : List Char) : (placedFrom n cs).map Prod.snd = cs := by
  induction cs generalizing n with
  | nil => rfl
  | cons c cs ih => rw [placedFrom, List.map_cons, ih]

/-- The characters of a text are at the offsets that its bytes take up. -/
theorem bounds_of_mem_placedFrom {n : Nat} {cs : List Char} {p : Nat × Char}
    (h : p ∈ placedFrom n cs) : n ≤ p.1 ∧ p.1 < n + byteLength cs := by
  induction cs generalizing n with
  | nil => exact absurd h List.not_mem_nil
  | cons c cs ih =>
      have hpos := c.utf8Size_pos
      rw [placedFrom, List.mem_cons] at h
      rw [byteLength_cons]
      rcases h with rfl | h
      · exact ⟨Nat.le_refl n, by omega⟩
      · have hbounds := ih h
        omega

theorem lineFeedsFrom_append (n : Nat) (a b : List Char) :
    lineFeedsFrom n (a ++ b) = lineFeedsFrom n a ++ lineFeedsFrom (n + byteLength a) b := by
  unfold lineFeedsFrom
  rw [placedFrom_append, List.filter_append, List.map_append]

theorem lineFeedsFrom_cons (n : Nat) (c : Char) (cs : List Char) :
    lineFeedsFrom n (c :: cs) =
      if c = '\n' then n :: lineFeedsFrom (n + 1) cs else lineFeedsFrom (n + c.utf8Size) cs := by
  unfold lineFeedsFrom
  by_cases hc : c = '\n'
  · rw [if_pos hc, placedFrom, List.filter_cons_of_pos (by simpa using hc), List.map_cons, hc]
    rfl
  · rw [if_neg hc, placedFrom, List.filter_cons_of_neg (by simpa using hc)]

theorem length_lineFeedsFrom (n : Nat) (cs : List Char) :
    (lineFeedsFrom n cs).length = cs.count '\n' := by
  induction cs generalizing n with
  | nil => rfl
  | cons c cs ih =>
      rw [lineFeedsFrom_cons]
      by_cases hc : c = '\n'
      · rw [if_pos hc, List.length_cons, ih, hc, List.count_cons_self]
      · rw [if_neg hc, ih, List.count_cons_of_ne hc]

theorem lineFeedsFrom_of_notMem {cs : List Char} (h : '\n' ∉ cs) (n : Nat) :
    lineFeedsFrom n cs = [] := by
  rw [← List.length_eq_zero_iff, length_lineFeedsFrom, List.count_eq_zero.mpr h]

theorem exists_of_mem_lineFeedsFrom {n feed : Nat} {cs : List Char}
    (h : feed ∈ lineFeedsFrom n cs) : (feed, '\n') ∈ placedFrom n cs := by
  rcases List.mem_map.mp h with ⟨p, hp, rfl⟩
  rw [List.mem_filter, decide_eq_true_eq] at hp
  rw [← hp.2]
  exact hp.1

/-- Behind lines that have ended, the last line feed is the last byte. -/
theorem getLast?_lineFeeds_of_ended {ended : List Char} (h : Ended ended) :
    (lineFeeds ended).getLast?.elim 0 (· + 1) = byteLength ended := by
  rcases ended.eq_nil_or_concat' with rfl | ⟨x, c, rfl⟩
  · rfl
  · have hc : c = '\n' := h c (by simp)
    rw [lineFeeds, lineFeedsFrom_append, lineFeedsFrom_cons, if_pos hc, byteLength_append, hc]
    simp [lineFeedsFrom, placedFrom, utf8Size_lineFeed]

/-- The first line feed ends the line. -/
theorem head?_lineFeedsFrom (n : Nat) (cs : List Char) :
    (lineFeedsFrom n cs).head?.elim (n + byteLength cs) (· + 1) =
      n + byteLength (lineAfter cs) := by
  induction cs generalizing n with
  | nil => rfl
  | cons c cs ih =>
      rw [lineFeedsFrom_cons, lineAfter]
      by_cases hc : c = '\n'
      · rw [if_pos hc, if_pos hc, hc]
        rfl
      · rw [if_neg hc, if_neg hc, byteLength_cons, byteLength_cons, ← Nat.add_assoc, ih,
          Nat.add_assoc]

theorem exists_lineAfter_append (after : List Char) : ∃ rest, after = lineAfter after ++ rest := by
  induction after with
  | nil => exact ⟨[], rfl⟩
  | cons c after ih =>
      rw [lineAfter]
      by_cases hc : c = '\n'
      · exact ⟨after, by rw [if_pos hc]; rfl⟩
      · rcases ih with ⟨rest, hrest⟩
        refine ⟨rest, ?_⟩
        rw [if_neg hc, List.cons_append, ← hrest]

/-- Of three parts of a text, the second is what is found from its first byte on, up to an
    offset that is behind its characters and not behind those of the third. -/
theorem slice_append {a m b : List Char} {stop : Nat}
    (hm : ∀ p ∈ placedFrom (byteLength a) m, p.1 < stop)
    (hb : ∀ p ∈ placedFrom (byteLength (a ++ m)) b, stop ≤ p.1) :
    slice (a ++ m ++ b) (byteLength a) stop = m := by
  have hfirst : (placedFrom 0 a).filter (fun p => byteLength a ≤ p.1 ∧ p.1 < stop) = [] := by
    rw [List.filter_eq_nil_iff]
    intro p hp
    have hbounds := bounds_of_mem_placedFrom hp
    simp only [decide_eq_true_eq]
    omega
  have hsecond : (placedFrom (byteLength a) m).filter
      (fun p => byteLength a ≤ p.1 ∧ p.1 < stop) = placedFrom (byteLength a) m := by
    rw [List.filter_eq_self]
    intro p hp
    rw [decide_eq_true_eq]
    exact ⟨(bounds_of_mem_placedFrom hp).1, hm p hp⟩
  have hthird : (placedFrom (byteLength (a ++ m)) b).filter
      (fun p => byteLength a ≤ p.1 ∧ p.1 < stop) = [] := by
    rw [List.filter_eq_nil_iff]
    intro p hp
    have hle := hb p hp
    simp only [decide_eq_true_eq]
    omega
  unfold slice placed
  rw [placedFrom_append, placedFrom_append, Nat.zero_add, Nat.zero_add, List.filter_append,
    List.filter_append, hfirst, hsecond, hthird, List.nil_append, List.append_nil,
    map_snd_placedFrom]

/-- A text is parted at an offset: the characters of the first part start before it, and
    those of the second do not. -/
structure PartedAt (offset : Nat) (before after : List Char) : Prop where
  starts : ∀ p ∈ placedFrom 0 before, p.1 < offset
  waits : ∀ p ∈ placedFrom (byteLength before) after, offset ≤ p.1

/-- The characters that start before an offset come first, wherever the text starts. -/
theorem exists_parts (offset n : Nat) (cs : List Char) :
    ∃ before after, cs = before ++ after ∧ (∀ p ∈ placedFrom n before, p.1 < offset) ∧
      ∀ p ∈ placedFrom (n + byteLength before) after, offset ≤ p.1 := by
  induction cs generalizing n with
  | nil => exact ⟨[], [], rfl, by simp [placedFrom], by simp [placedFrom]⟩
  | cons c cs ih =>
      by_cases hn : n < offset
      · rcases ih (n + c.utf8Size) with ⟨before, after, rfl, hstarts, hwaits⟩
        refine ⟨c :: before, after, rfl, ?_, ?_⟩
        · rw [placedFrom, List.forall_mem_cons]
          exact ⟨hn, hstarts⟩
        · rw [byteLength_cons, ← Nat.add_assoc]
          exact hwaits
      · refine ⟨[], c :: cs, rfl, by simp [placedFrom], ?_⟩
        intro p hp
        have hbounds := bounds_of_mem_placedFrom hp
        omega

theorem exists_partedAt (offset : Nat) (cs : List Char) :
    ∃ before after, cs = before ++ after ∧ PartedAt offset before after := by
  rcases exists_parts offset 0 cs with ⟨before, after, hcs, hstarts, hwaits⟩
  rw [Nat.zero_add] at hwaits
  exact ⟨before, after, hcs, hstarts, hwaits⟩

namespace PartedAt

variable {offset : Nat} {before after : List Char}

/-- The line feeds before an offset are those of the first part. -/
theorem filter_lineFeeds (h : PartedAt offset before after) :
    (lineFeeds (before ++ after)).filter (· < offset) = lineFeeds before := by
  have hbefore : (lineFeedsFrom 0 before).filter (· < offset) = lineFeedsFrom 0 before := by
    rw [List.filter_eq_self]
    intro feed hfeed
    rw [decide_eq_true_eq]
    exact h.starts _ (exists_of_mem_lineFeedsFrom hfeed)
  have hafter : (lineFeedsFrom (byteLength before) after).filter (· < offset) = [] := by
    rw [List.filter_eq_nil_iff]
    intro feed hfeed
    have hle := h.waits _ (exists_of_mem_lineFeedsFrom hfeed)
    rw [decide_eq_true_eq]
    exact Nat.not_lt.mpr hle
  rw [lineFeeds, lineFeedsFrom_append, Nat.zero_add, List.filter_append, hbefore, hafter,
    List.append_nil]
  rfl

/-- The next line feed is the first one of the second part. -/
theorem find?_lineFeeds (h : PartedAt offset before after) :
    (lineFeeds (before ++ after)).find? (offset ≤ ·) =
      (lineFeedsFrom (byteLength before) after).head? := by
  have hbefore : (lineFeedsFrom 0 before).find? (offset ≤ ·) = none := by
    rw [List.find?_eq_none]
    intro feed hfeed
    have hlt := h.starts _ (exists_of_mem_lineFeedsFrom hfeed)
    rw [decide_eq_true_eq]
    exact Nat.not_le.mpr hlt
  rw [lineFeeds, lineFeedsFrom_append, Nat.zero_add, List.find?_append, hbefore, Option.none_or]
  rcases hfeeds : lineFeedsFrom (byteLength before) after with _ | ⟨feed, feeds⟩
  · rfl
  · have hmem : feed ∈ lineFeedsFrom (byteLength before) after := by simp [hfeeds]
    have hle := h.waits _ (exists_of_mem_lineFeedsFrom hmem)
    rw [List.find?_cons_of_pos (by simpa using hle), List.head?_cons]

/-- The line starts behind the lines that have ended. -/
theorem lineStart_eq (h : PartedAt offset before after) {ended : List Char}
    (hbefore : before = ended ++ lineBefore before) (hended : Ended ended) :
    lineStart (before ++ after) offset = byteLength ended := by
  have hfeeds : lineFeeds before = lineFeeds ended := by
    conv => lhs; rw [hbefore]
    rw [lineFeeds, lineFeedsFrom_append, lineFeedsFrom_of_notMem (notMem_lineBefore before),
      List.append_nil]
    rfl
  rw [lineStart, h.filter_lineFeeds, hfeeds, getLast?_lineFeeds_of_ended hended]

/-- The line stops behind what is left of it in the second part. -/
theorem lineStop_eq (h : PartedAt offset before after) :
    lineStop (before ++ after) offset = byteLength before + byteLength (lineAfter after) := by
  rw [lineStop, h.find?_lineFeeds, byteLength_append, head?_lineFeedsFrom]

/-- What is found from the start of the line up to the offset. -/
theorem slice_lineStart (h : PartedAt offset before after) :
    slice (before ++ after) (lineStart (before ++ after) offset) offset = lineBefore before := by
  rcases exists_ended_append before with ⟨ended, hbefore, hended⟩
  rw [h.lineStart_eq hbefore hended]
  conv => lhs; rw [hbefore]
  refine slice_append ?_ ?_
  · intro p hp
    refine h.starts p ?_
    rw [hbefore, placedFrom_append, Nat.zero_add]
    exact List.mem_append_right _ hp
  · rw [← hbefore]
    exact h.waits

/-- What is found from the start of the line up to its end. -/
theorem slice_line (h : PartedAt offset before after) :
    slice (before ++ after) (lineStart (before ++ after) offset)
      (lineStop (before ++ after) offset) = lineBefore before ++ lineAfter after := by
  rcases exists_ended_append before with ⟨ended, hbefore, hended⟩
  rcases exists_lineAfter_append after with ⟨rest, hafter⟩
  have hbytes : byteLength before + byteLength (lineAfter after) =
      byteLength ended + byteLength (lineBefore before ++ lineAfter after) := by
    conv => lhs; rw [hbefore]
    rw [byteLength_append, byteLength_append, Nat.add_assoc]
  have hparts : before ++ after = ended ++ (lineBefore before ++ lineAfter after) ++ rest := by
    conv => lhs; rw [hbefore, hafter]
    simp only [List.append_assoc]
  rw [h.lineStart_eq hbefore hended, h.lineStop_eq, hbytes, hparts]
  refine slice_append ?_ ?_
  · intro p hp
    exact (bounds_of_mem_placedFrom hp).2
  · intro p hp
    rw [← byteLength_append]
    exact (bounds_of_mem_placedFrom hp).1

/-- The location of an offset that is not behind the first part. -/
theorem locate_eq (h : PartedAt offset before after) (hle : offset ≤ byteLength before) :
    locate (before ++ after) offset = ⟨before.count '\n' + 1,
      lineBefore before ++ lineAfter after, (lineBefore before).length⟩ := by
  by_cases hend : offset = byteLength before
  · rw [hend, locate_append]
  · -- The offset is inside the last character of the first part.
    rcases before.eq_nil_or_concat' with rfl | ⟨x, c, rfl⟩
    · exact absurd (Nat.le_zero.mp hle) hend
    · have hstart : byteLength x < offset := by
        refine h.starts (byteLength x, c) ?_
        rw [placedFrom_append, Nat.zero_add]
        simp [placedFrom]
      rw [byteLength_append, byteLength_cons, byteLength_nil, Nat.add_zero] at hle hend
      have hc : c ≠ '\n' := by
        intro hc
        rw [hc, utf8Size_lineFeed] at hle hend
        omega
      have hacross := locate_across x after (c := c) (n := offset - byteLength x) (by omega)
      have hcolumn : charsBefore (offset - byteLength x) (lineAfter (c :: after)) = 1 := by
        rw [lineAfter, if_neg hc,
          show offset - byteLength x = offset - byteLength x - 1 + 1 by omega, charsBefore,
          show offset - byteLength x - 1 + 1 - c.utf8Size = 0 by omega, charsBefore_zero]
      have hline : lineBefore (x ++ [c]) = lineBefore x ++ [c] := by
        simp [lineBefore, hc]
      rw [Nat.add_sub_cancel' (Nat.le_of_lt hstart), hcolumn] at hacross
      rw [List.append_assoc, List.singleton_append, hacross, hline, lineAfter, if_neg hc]
      simp [List.count_cons_of_ne hc]

end PartedAt

/-- Offsets behind the end of a text are located at its end. -/
theorem locate_min (cs : List Char) (position : Nat) :
    locate cs (min position (byteLength cs)) = locate cs position := by
  by_cases hle : position ≤ byteLength cs
  · rw [Nat.min_eq_left hle]
  · rw [Nat.min_eq_right (by omega), locate_of_byteLength_le (Nat.le_refl _),
      locate_of_byteLength_le (by omega)]

theorem byteLength_flatten (lines : List (List Char)) :
    byteLength lines.flatten = (lines.map byteLength).sum := by
  induction lines with
  | nil => rfl
  | cons line lines ih =>
      rw [List.flatten_cons, byteLength_append, ih, List.map_cons, List.sum_cons]

/-- An offset between two characters is as many bytes from the start of the text as the
    earlier lines have, and the characters in front of it on its own line. -/
theorem sum_earlier_lines (before after : List Char) :
    (((linesWithEnds (before ++ after)).take (before.count '\n')).map byteLength).sum +
      byteLength (lineBefore before) = byteLength before := by
  rcases exists_ended_append before with ⟨ended, hbefore, hended⟩
  have hcount := count_eq_length_linesWithEnds hbefore hended
  have hlines : linesWithEnds (before ++ after) =
      linesWithEnds ended ++ linesWithEnds (lineBefore before ++ after) := by
    conv => lhs; rw [hbefore]
    rw [List.append_assoc, linesWithEnds_append hended]
  rw [hlines, hcount, List.take_left, ← byteLength_flatten, flatten_linesWithEnds,
    ← byteLength_append, ← hbefore]

/-- The location of any offset, told by bytes. Offsets behind the end count as the end.
    The number of the line is by one more than the line feeds before the offset, its text
    goes from behind the last of them to behind the next one, and the column is how many
    characters start in between. Where the offset is between two characters, the bytes of
    the earlier lines and those in front of it on its own line add up to it. -/
theorem locate_by_bytes (cs : List Char) (position : Nat) :
    let offset := min position (byteLength cs)
    let place := locate cs position
    place.number = 1 + ((lineFeeds cs).filter (· < offset)).length ∧
    place.text = slice cs (lineStart cs offset) (lineStop cs offset) ∧
    place.column = (slice cs (lineStart cs offset) offset).length ∧
    ((∃ before after, cs = before ++ after ∧ byteLength before = offset) →
      (((linesWithEnds cs).take (place.number - 1)).map byteLength).sum +
        byteLength (place.text.take place.column) = offset) := by
  intro offset place
  have hplace : place = locate cs offset := (locate_min cs position).symm
  rcases exists_partedAt offset cs with ⟨before, after, hcs, hparted⟩
  have hle : offset ≤ byteLength before := by
    rcases after with _ | ⟨c, after⟩
    · have hend : offset ≤ byteLength cs := Nat.min_le_right _ _
      rwa [hcs, List.append_nil] at hend
    · exact hparted.waits (byteLength before, c) (by simp [placedFrom])
  have hlocation := hparted.locate_eq hle
  rw [← hcs, ← hplace] at hlocation
  refine ⟨?_, ?_, ?_, ?_⟩
  · rw [hlocation, hcs, hparted.filter_lineFeeds, lineFeeds, length_lineFeedsFrom, Nat.add_comm]
  · rw [hlocation, hcs, hparted.slice_line]
  · rw [hlocation, hcs, hparted.slice_lineStart]
  · intro hbetween
    rcases hbetween with ⟨front, back, hsplit, hfront⟩
    have hboundary := locate_append front back
    rw [hfront, ← hsplit, ← hplace] at hboundary
    rw [hboundary, Nat.add_sub_cancel, List.take_left, hsplit, sum_earlier_lines, hfront]

/-- The offset between two characters of several bytes, on the line behind an empty one. -/
theorem locate_by_bytes_wide :
    let cs := "ab\n\né😀z".toList
    (∃ before after, cs = before ++ after ∧ byteLength before = 6) ∧
      locate cs 6 = ⟨3, "é😀z".toList, 1⟩ ∧ "é😀z".toList = slice cs 4 11 ∧
      (((linesWithEnds cs).take 2).map byteLength).sum + byteLength ['é'] = 6 := by
  intro cs
  have hbetween : ∃ before after, cs = before ++ after ∧ byteLength before = 6 :=
    ⟨"ab\n\né".toList, "😀z".toList, by decide, by decide⟩
  have hplace : locate cs 6 = ⟨3, "é😀z".toList, 1⟩ := by decide
  rcases locate_by_bytes cs 6 with ⟨-, htext, -, hsum⟩
  rw [hplace] at htext hsum
  exact ⟨hbetween, hplace, htext, hsum hbetween⟩

example : locate "é\nß".toList 4 = ⟨2, ['ß'], 1⟩ := by decide

end Text

end Annotations
