import Annotations.Proofs.Text.Places

/-!
# The Lines of a Text, One by One

What is known about the contents of lines. A line has no line feed in it. The lines of
two texts are the lines of one and then those of the other, if the first text has no
line left open. And lines that are written out, each with a line feed behind it, are
the lines of what was written, provided that a carriage return at the end of a line is
not taken for a part of the line feed.

Lines of white space alone are passed over by whoever reads line by line, so these laws
are put in terms of the lines that are left.

A line is put together from items with a separator between neighbours, and what it is
made of is what the items and the separator are made of.

## Main definitions

* `filledLines`: The lines of a text that are not blank.
* `Writable`: A line that is read back if it is written out.

## Theorems

* `lineFeed_notMem_of_mem_lineContents`: A line has no line feed in it.
* `filledLines_append`: The lines of two texts.
* `filledLines_eq_nil_iff`: A text without filled lines is white space.
* `exists_of_filledLines_eq_cons`: What stands around the first filled line.
* `filledLines_of_notMem`: A text without line feed is its only line.
* `filledLines_join`: Lines that were written out are read back.
* `splitOn_join`: Lines that were written out stand between line feeds.
* `mem_intercalate`: What separated items are made of.
-/

namespace Annotations

namespace Text

/-- The lines of a text that are not blank. -/
def filledLines (contents : String) : List String :=
  ((lineContents contents.toList).filter fun line => !(trim line).isEmpty).map String.ofList

theorem trim_eq_nil_iff {cs : List Char} : trim cs = [] ↔ ∀ c ∈ cs, isBlank c = true := by
  unfold trim
  rw [trimEnd_eq_nil_iff]
  constructor
  · intro h c hc
    rw [← List.takeWhile_append_dropWhile (p := isBlank) (l := cs), List.mem_append] at hc
    rcases hc with hc | hc
    · exact List.mem_takeWhile_imp hc
    · exact h c hc
  · intro h c hc
    exact h c ((List.dropWhile_sublist isBlank).subset hc)

/-- A line is some text without a line feed, with one behind it unless it is the last. -/
theorem exists_of_mem_linesWithEnds {cs line : List Char} (h : line ∈ linesWithEnds cs) :
    ∃ x, '\n' ∉ x ∧ (line = x ∨ line = x ++ ['\n']) := by
  induction cs generalizing line with
  | nil => exact absurd h List.not_mem_nil
  | cons c cs ih =>
      by_cases hc : c = '\n'
      · rw [linesWithEnds, if_pos hc, List.mem_cons] at h
        rcases h with rfl | h
        · exact ⟨[], List.not_mem_nil, Or.inr (by rw [hc]; rfl)⟩
        · exact ih h
      · rw [linesWithEnds, if_neg hc] at h
        cases hlines : linesWithEnds cs with
        | nil =>
            rw [hlines] at h
            refine ⟨[c], ?_, Or.inl (List.mem_singleton.mp h)⟩
            simp [Ne.symm hc]
        | cons first others =>
            rw [hlines] at h ih
            rcases List.mem_cons.mp h with rfl | h
            · rcases ih List.mem_cons_self with ⟨x, hx, hfirst⟩
              refine ⟨c :: x, by simp [hx, Ne.symm hc], ?_⟩
              rcases hfirst with rfl | rfl
              · exact Or.inl rfl
              · exact Or.inr rfl
            · exact ih (List.mem_cons_of_mem first h)

/-- What ends a line is its line feed, with a carriage return in front of that. -/
theorem withoutEnd_concat (x : List Char) :
    withoutEnd (x ++ ['\n']) = if x.getLast? = some '\r' then x.dropLast else x := by
  unfold withoutEnd
  rw [List.reverse_append, List.reverse_singleton, List.singleton_append]
  rcases List.eq_nil_or_concat x with rfl | ⟨front, last, rfl⟩
  · rfl
  · rw [List.concat_eq_append, List.reverse_append, List.reverse_singleton, List.singleton_append,
      List.getLast?_concat, List.dropLast_concat]
    by_cases hlast : last = '\r'
    · simp [hlast]
    · simp [hlast]

theorem withoutEnd_of_notMem {x : List Char} (h : '\n' ∉ x) : withoutEnd x = x := by
  unfold withoutEnd
  split
  · next heq => exact absurd (List.mem_reverse.mp (by rw [heq]; exact List.mem_cons_self)) h
  · next heq => exact absurd (List.mem_reverse.mp (by rw [heq]; exact List.mem_cons_self)) h
  · rfl

/-- A line has no line feed in it. -/
theorem lineFeed_notMem_of_mem_lineContents {cs line : List Char} (h : line ∈ lineContents cs) :
    '\n' ∉ line := by
  rcases List.mem_map.mp h with ⟨whole, hwhole, rfl⟩
  rcases exists_of_mem_linesWithEnds hwhole with ⟨x, hx, rfl | rfl⟩
  · rw [withoutEnd_of_notMem hx]
    exact hx
  · rw [withoutEnd_concat]
    split
    · exact fun hmem => hx (List.dropLast_subset x hmem)
    · exact hx

theorem lineFeed_notMem_of_mem_filledLines {contents line : String}
    (h : line ∈ filledLines contents) : '\n' ∉ line.toList := by
  rcases List.mem_map.mp h with ⟨cs, hcs, rfl⟩
  rw [String.toList_ofList]
  exact lineFeed_notMem_of_mem_lineContents (List.mem_of_mem_filter hcs)

/-- The lines of two texts, the first of which has no line left open. -/
theorem filledLines_append {a : String} (ha : Ended a.toList) (b : String) :
    filledLines (a ++ b) = filledLines a ++ filledLines b := by
  unfold filledLines lineContents
  rw [String.toList_append, linesWithEnds_append ha, List.map_append, List.filter_append,
    List.map_append]

theorem ended_concat (x : List Char) : Ended (x ++ ['\n']) := by
  intro c hc
  rw [List.getLast?_concat] at hc
  exact (Option.some.inj hc).symm

/-- A text without line feed is one line if a line feed follows it. -/
theorem linesWithEnds_concat {x : List Char} (h : '\n' ∉ x) :
    linesWithEnds (x ++ ['\n']) = [x ++ ['\n']] := by
  rcases linesWithEnds_across h (List.cons_ne_nil '\n' []) with ⟨others, hothers⟩
  -- There is one line feed, so there are no other lines.
  have hcount := length_linesWithEnds (ended_concat x)
  rw [hothers, List.length_cons, List.count_append, List.count_eq_zero.mpr h] at hcount
  have hnone : others = [] := List.length_eq_zero_iff.mp (by simpa using hcount)
  rw [hothers, hnone]
  rfl

/-- A text without line feed is one line by itself. -/
theorem linesWithEnds_of_notMem {x : List Char} (h : '\n' ∉ x) (hne : x ≠ []) :
    linesWithEnds x = [x] := by
  induction x with
  | nil => exact absurd rfl hne
  | cons c x ih =>
      rw [List.mem_cons, not_or] at h
      rw [linesWithEnds, if_neg (Ne.symm h.1)]
      by_cases hx : x = []
      · rw [hx]
        rfl
      · rw [ih h.2 hx]

/-- A line is its contents and then white space that ends it. -/
theorem exists_withoutEnd_append (line : List Char) :
    ∃ ending, line = withoutEnd line ++ ending ∧ ∀ c ∈ ending, isBlank c = true := by
  unfold withoutEnd
  split
  · next rest h =>
      refine ⟨['\r', '\n'], ?_, List.all_eq_true.mp rfl⟩
      rw [← List.reverse_reverse line, h]
      simp
  · next rest _ h =>
      refine ⟨['\n'], ?_, List.all_eq_true.mp rfl⟩
      rw [← List.reverse_reverse line, h]
      simp
  · exact ⟨[], by simp, by simp⟩

theorem trim_withoutEnd_eq_nil_iff {line : List Char} :
    trim (withoutEnd line) = [] ↔ ∀ c ∈ line, isBlank c = true := by
  rcases exists_withoutEnd_append line with ⟨ending, hline, hending⟩
  rw [trim_eq_nil_iff]
  constructor
  · intro h c hc
    rw [hline] at hc
    exact (List.mem_append.mp hc).elim (h c) (hending c)
  · intro h c hc
    apply h
    rw [hline]
    exact List.mem_append_left _ hc

/-- Lines are all blank exactly if what they join to is. -/
theorem filter_filled_eq_nil_iff {lines : List (List Char)} :
    lines.filter (fun line => !(trim (withoutEnd line)).isEmpty) = [] ↔
      ∀ c ∈ lines.flatten, isBlank c = true := by
  simp only [List.filter_eq_nil_iff, List.mem_flatten, Bool.not_eq_true',
    List.isEmpty_eq_false_iff, ne_eq, not_not, trim_withoutEnd_eq_nil_iff]
  constructor
  · rintro h c ⟨line, hline, hc⟩
    exact h line hline c hc
  · intro h line hline c hc
    exact h c ⟨line, hline, hc⟩

theorem filledLines_eq_map (contents : String) :
    filledLines contents =
      ((linesWithEnds contents.toList).filter fun line => !(trim (withoutEnd line)).isEmpty).map
        fun line => String.ofList (withoutEnd line) := by
  unfold filledLines lineContents
  rw [List.filter_map, List.map_map]
  rfl

/-- A text has no filled line exactly if it is all white space. -/
theorem filledLines_eq_nil_iff {contents : String} :
    filledLines contents = [] ↔ ∀ c ∈ contents.toList, isBlank c = true := by
  rw [filledLines_eq_map, List.map_eq_nil_iff, filter_filled_eq_nil_iff, flatten_linesWithEnds]

/-- In front of the first filled line there is white space, and there are others exactly if
    there is something else behind it. -/
theorem exists_of_filledLines_eq_cons {contents line : String} {others : List String}
    (h : filledLines contents = line :: others) :
    ∃ before ending after : String, contents = before ++ (line ++ (ending ++ after)) ∧
      (∀ c ∈ before.toList, isBlank c = true) ∧ (∀ c ∈ ending.toList, isBlank c = true) ∧
      (others = [] ↔ ∀ c ∈ after.toList, isBlank c = true) := by
  rw [filledLines_eq_map, List.map_eq_cons_iff] at h
  rcases h with ⟨whole, wholes, hfilter, hline, hothers⟩
  rcases List.filter_eq_cons_iff.mp hfilter with ⟨blank, rest, hlines, hblank, -, hrest⟩
  rcases exists_withoutEnd_append whole with ⟨ending, hwhole, hending⟩
  refine ⟨String.ofList blank.flatten, String.ofList ending, String.ofList rest.flatten,
    ?_, ?_, ?_, ?_⟩
  · apply String.toList_inj.mp
    rw [← flatten_linesWithEnds contents.toList, hlines, ← hline]
    simp only [List.flatten_append, List.flatten_cons, String.toList_append, String.toList_ofList]
    rw [← List.append_assoc (withoutEnd whole), ← hwhole]
  · rw [String.toList_ofList]
    exact filter_filled_eq_nil_iff.mp (List.filter_eq_nil_iff.mpr hblank)
  · rw [String.toList_ofList]
    exact hending
  · rw [String.toList_ofList, ← hothers, List.map_eq_nil_iff, ← hrest, filter_filled_eq_nil_iff]

/-- A text without line feed that is not blank is its only line. -/
theorem filledLines_of_notMem {s : String} (h : '\n' ∉ s.toList)
    (hfilled : ∃ c ∈ s.toList, isBlank c = false) : filledLines s = [s] := by
  rcases hfilled with ⟨c, hc, hblank⟩
  have hne : s.toList ≠ [] := List.ne_nil_of_mem hc
  have htrim : trim s.toList ≠ [] := by
    intro hnil
    rw [trim_eq_nil_iff.mp hnil c hc] at hblank
    cases hblank
  rw [filledLines_eq_map, linesWithEnds_of_notMem h hne]
  simp [withoutEnd_of_notMem h, htrim]

/-- A line that can be written out: it has no line feed in it, does not end in a carriage
    return and is not blank. -/
structure Writable (line : String) : Prop where
  lineFeed_notMem : '\n' ∉ line.toList
  getLast?_ne : line.toList.getLast? ≠ some '\r'
  filled : ∃ c ∈ line.toList, isBlank c = false

theorem Writable.filledLines_eq {line : String} (h : Writable line) :
    filledLines (line ++ "\n") = [line] := by
  have hcontents : lineContents (line ++ "\n").toList = [line.toList] := by
    unfold lineContents
    rw [String.toList_append]
    show (linesWithEnds (line.toList ++ ['\n'])).map withoutEnd = [line.toList]
    rw [linesWithEnds_concat h.lineFeed_notMem, List.map_singleton, withoutEnd_concat,
      if_neg h.getLast?_ne]
  have hfilled : (trim line.toList).isEmpty = false := by
    rcases h.filled with ⟨c, hc, hblank⟩
    rw [List.isEmpty_eq_false_iff, ne_eq, trim_eq_nil_iff]
    intro hall
    rw [hall c hc] at hblank
    cases hblank
  unfold filledLines
  rw [hcontents, List.filter_singleton, hfilled]
  simp

/-- Lines that were written out, each with a line feed behind it, are read back. -/
theorem filledLines_join {lines : List String} (h : ∀ line ∈ lines, Writable line) :
    filledLines (String.join (lines.map (· ++ "\n"))) = lines := by
  induction lines with
  | nil => rfl
  | cons line lines ih =>
      rw [List.forall_mem_cons] at h
      have hended : Ended (line ++ "\n").toList := by
        rw [String.toList_append]
        exact ended_concat line.toList
      rw [List.map_cons, String.join_cons, filledLines_append hended, h.1.filledLines_eq, ih h.2]
      rfl

/-- Lines that were written out stand between line feeds, with nothing after the last. -/
theorem splitOn_join {lines : List String} (h : ∀ line ∈ lines, '\n' ∉ line.toList) :
    (String.join (lines.map (· ++ "\n"))).toList.splitOn '\n' =
      lines.map String.toList ++ [[]] := by
  have htext : (String.join (lines.map (· ++ "\n"))).toList =
      ['\n'].intercalate (lines.map String.toList ++ [[]]) := by
    clear h
    induction lines with
    | nil => rfl
    | cons line lines ih =>
        rw [List.map_cons, String.join_cons, String.toList_append, ih, String.toList_append]
        -- There is something after the first line, if only the nothing at the end.
        cases lines with
        | nil => simp
        | cons next lines => simp
  have hfree : ∀ line ∈ lines.map String.toList ++ [[]], '\n' ∉ line := by
    intro line hline
    rcases List.mem_append.mp hline with hmem | hmem
    · rcases List.mem_map.mp hmem with ⟨s, hs, rfl⟩
      exact h s hs
    · rw [List.mem_singleton.mp hmem]
      exact List.not_mem_nil
  rw [htext, List.splitOn_intercalate '\n' hfree (by simp)]

/-- Items with a separator between neighbours are the first of them and then each of the
    others behind a separator. -/
theorem intercalate_cons (separator item : List Char) (items : List (List Char)) :
    separator.intercalate (item :: items) = item ++ items.flatMap (separator ++ ·) := by
  induction items generalizing item with
  | nil => rw [List.intercalate_singleton, List.flatMap_nil, List.append_nil]
  | cons next items ih =>
      rw [List.intercalate_cons_cons, ih, List.flatMap_cons, List.append_assoc, List.append_assoc]

/-- Separated items are made of what the items and the separator are made of. -/
theorem mem_intercalate {separator : List Char} {items : List (List Char)} {c : Char}
    (h : c ∈ separator.intercalate items) : c ∈ separator ∨ ∃ item ∈ items, c ∈ item := by
  rcases items with _ | ⟨item, items⟩
  · cases h
  · rw [intercalate_cons, List.mem_append, List.mem_flatMap] at h
    rcases h with hitem | ⟨other, hother, hc⟩
    · exact Or.inr ⟨item, List.mem_cons_self, hitem⟩
    · rcases List.mem_append.mp hc with hseparator | hc
      · exact Or.inl hseparator
      · exact Or.inr ⟨other, List.mem_cons_of_mem item hother, hc⟩

end Text

end Annotations
