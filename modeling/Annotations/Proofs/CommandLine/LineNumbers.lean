import Annotations.Proofs.CommandLine.LineByLine
import Annotations.Proofs.Tag.Caret

/-!
# The Line Numbers of Diagnostics

A diagnostic shows the line of the source that a fault is in, behind the number of that
line. What the number counts is settled by the source: it is the number within the text
that the diagnostic was made for. A run makes it for a line by itself, which has no line
feed in it, so that every diagnostic of a run shows the number one, also for lines that
come later in the input.

The lines that are refused are listed here with their numbers within the input, blank
lines counted, to be compared with what is shown.

## Main definitions

* `Text.lineAbove`: The line above the last one.
* `Diagnostic.numberShown`: The line number in a diagnostic.
* `CommandLine.Refusal`: A line that is refused, and its number within the input.
* `CommandLine.refusals`: The lines of an input that are refused.

## Theorems

* `Text.locate_of_notMem`: The only line of a text without line feed.
* `Diagnostic.numberShown_render`: The number shown is that of the line within the source.
* `CommandLine.mem_refusals_iff`: Which lines are refused.
* `CommandLine.stderr_eq_refusals`: There is one diagnostic for each line that is refused.
* `CommandLine.run_shows_first_line`: All diagnostics of a run show the number one.
-/

namespace Annotations

namespace Text

/-- The line above the last one. -/
def lineAbove (cs : List Char) : List Char :=
  lineBefore (cs.reverse.dropWhile (· ≠ '\n')).tail.reverse

/-- The lines of a text whose last two are known. -/
theorem lineAbove_append {x y : List Char} (hx : '\n' ∉ x) (hy : '\n' ∉ y) (front : List Char) :
    lineAbove (front ++ '\n' :: x ++ '\n' :: y) = x := by
  -- Read backwards, the last line ends at the first line feed, and the one above it at
  -- the second.
  have hreverse : (front ++ '\n' :: x ++ '\n' :: y).reverse =
      y.reverse ++ '\n' :: (x.reverse ++ '\n' :: front.reverse) := by
    simp
  have hlast : (y.reverse ++ '\n' :: (x.reverse ++ '\n' :: front.reverse)).dropWhile (· ≠ '\n') =
      '\n' :: (x.reverse ++ '\n' :: front.reverse) :=
    dropWhile_append_stop (ne_lineFeed_of_mem_reverse hy) (by simp)
  have habove : (x.reverse ++ '\n' :: front.reverse).takeWhile (· ≠ '\n') = x.reverse :=
    takeWhile_append_stop (ne_lineFeed_of_mem_reverse hx) (by simp)
  rw [lineAbove, hreverse, hlast, List.tail_cons, lineBefore, List.reverse_reverse, habove,
    List.reverse_reverse]

/-- A text without line feed is its only line, wherever an offset falls. -/
theorem locate_of_notMem {cs : List Char} (h : '\n' ∉ cs) (offset : Nat) :
    (locate cs offset).number = 1 ∧ (locate cs offset).text = cs := by
  have hend : (endLocation cs).number = 1 ∧ (endLocation cs).text = cs := by
    constructor
    · simp [endLocation, List.count_eq_zero.mpr h]
    · exact lineBefore_of_notMem h
  by_cases hcs : cs = []
  · subst hcs
    exact hend
  · unfold locate
    rw [linesWithEnds_of_notMem h hcs, locateIn]
    -- The line holds the offset, or the offset is past the end.
    split
    · exact ⟨rfl, rfl⟩
    · exact hend

theorem mem_of_locateIn {number offset : Nat} {lines : List (List Char)} {place : Location}
    (h : locateIn number offset lines = some place) : place.text ∈ lines := by
  induction lines generalizing number offset with
  | nil => cases h
  | cons line lines ih =>
      rw [locateIn] at h
      split at h
      · cases h
        exact List.mem_cons_self
      · exact List.mem_cons_of_mem line (ih h)

/-- The line that an offset falls on has at most one line feed, at its end. -/
theorem exists_text_locate_eq (cs : List Char) (offset : Nat) :
    ∃ x, '\n' ∉ x ∧
      ((locate cs offset).text = x ∨ (locate cs offset).text = x ++ ['\n']) := by
  unfold locate
  cases hfound : locateIn 1 offset (linesWithEnds cs) with
  | none => exact ⟨lineBefore cs, notMem_lineBefore cs, Or.inl rfl⟩
  | some place => exact exists_of_mem_linesWithEnds (mem_of_locateIn hfound)

end Text

namespace Diagnostic

open Text

/-- The line number in a diagnostic: the digits in front of the line that stands above the
    caret. -/
def numberShown (diagnostic : String) : Option Nat :=
  Number.readDigits? ((lineAbove diagnostic.toList).takeWhile Char.isDigit)

/-- What is shown of a line is on one line. -/
theorem lineFeed_notMem_shown {line x : List Char} (hx : '\n' ∉ x)
    (hline : line = x ∨ line = x ++ ['\n']) : '\n' ∉ shown line := by
  have htrimmed : shown line = trimEnd (x.dropWhile (· = ' ')) := by
    rcases hline with rfl | rfl
    · rfl
    · have hfeed : (x ++ ['\n']).dropWhile (· = ' ') = x.dropWhile (· = ' ') ++ ['\n'] := by
        rw [List.dropWhile_append]
        by_cases hspaces : (x.dropWhile (· = ' ')).isEmpty = true
        · rw [if_pos hspaces, List.isEmpty_iff.mp hspaces]
          rfl
        · rw [if_neg hspaces]
      rw [shown, hfeed, trimEnd_append_of_blank]
      intro c hc
      rw [List.mem_singleton.mp hc]
      decide
  rw [htrimmed]
  intro hmem
  exact hx ((List.dropWhile_sublist _).subset ((trimEnd_sublist _).subset hmem))

/-- The number that a diagnostic shows is that of the line within the source which it was
    made for. -/
theorem numberShown_render (fault : Fault) (source : String) :
    numberShown (fault.render source) =
      some (locate source.toList fault.position.offset.toNat).number := by
  set place := locate source.toList fault.position.offset.toNat
  rcases exists_text_locate_eq source.toList fault.position.offset.toNat with ⟨x, hx, hline⟩
  rcases fault.exists_render_eq source with ⟨heading, hrender⟩
  have hexcerpt : lineAbove (fault.render source).toList = excerpt place := by
    rw [hrender]
    exact lineAbove_append (notMem_excerpt (lineFeed_notMem_shown hx hline)) (notMem_pointer _) _
  have hdigits := Number.isDigits_toDigits place.number
  have hnumber : (excerpt place).takeWhile Char.isDigit = Nat.toDigits 10 place.number := by
    rw [excerpt, List.append_assoc]
    exact takeWhile_append_stop hdigits.2 (by simp)
  rw [numberShown, hexcerpt, hnumber, Number.readDigits?_of_isDigits hdigits,
    Nat.ofDigitChars_ten_toDigits]

/-- The diagnostic of a text without line feed: there is one line to show. -/
theorem render_of_notMem (fault : Fault) {source : String} (h : '\n' ∉ source.toList) :
    ∃ dashes, fault.render source =
      String.ofList (heading fault.cause) ++ "\n-> " ++ fault.position.label ++ "\n  |\n1 | " ++
        String.ofList (shown source.toList) ++ "\n  | " ++
        String.ofList (List.replicate dashes '-') ++ "^" := by
  rcases hplace : locate source.toList fault.position.offset.toNat with ⟨number, text, column⟩
  have hone := locate_of_notMem h fault.position.offset.toNat
  rw [hplace] at hone
  rcases hone with ⟨rfl, rfl⟩
  refine ⟨column - indent source.toList, String.toList_inj.mp ?_⟩
  have hdigits : Nat.toDigits 10 1 = ['1'] := rfl
  simp [Fault.render, hplace, List.intercalate, bar, excerpt, pointer, hdigits]

end Diagnostic

namespace CommandLine

open Diagnostic Text

/-- A line that is refused, with its number within the input. -/
structure Refusal where
  number : Nat
  line : String
  fault : Fault

/-- The diagnostic of a line that is refused, under the label of its input. -/
def Refusal.diagnostic (label : String) (r : Refusal) : String :=
  (r.fault.relabelled label).render r.line

/-- What becomes of the line with a number, if it is refused. -/
def refusal? (maxDepth : Nat) (line : List Char) (number : Nat) : Option Refusal :=
  if (trim line).isEmpty then none
  else match Tag.ofText maxDepth (String.ofList line) with
    | .ok _ => none
    | .error fault => some ⟨number, String.ofList line, fault⟩

/-- The lines of an input that are refused. Lines are numbered from one, and blank lines
    have numbers as well. -/
def refusals (maxDepth : Nat) (contents : String) : List Refusal :=
  ((lineContents contents.toList).zipIdx 1).filterMap fun (line, number) =>
    refusal? maxDepth line number

theorem refusal?_eq_some_iff {maxDepth number : Nat} {line : List Char} {r : Refusal} :
    refusal? maxDepth line number = some r ↔
      r.number = number ∧ r.line = String.ofList line ∧ trim line ≠ [] ∧
        Tag.ofText maxDepth (String.ofList line) = .error r.fault := by
  unfold refusal?
  by_cases hblank : trim line = []
  · simp [hblank]
  · rcases r with ⟨n, l, fault⟩
    cases Tag.ofText maxDepth (String.ofList line) with
    | ok t => simp [hblank]
    | error fault' =>
        simp only [List.isEmpty_iff, hblank, if_false, Option.some.injEq, Refusal.mk.injEq,
          Except.error.injEq, ne_eq, not_false_eq_true, true_and]
        grind

/-- The lines that are refused are those that are not blank and cannot be read. -/
theorem mem_refusals_iff {maxDepth : Nat} {contents : String} {r : Refusal} :
    r ∈ refusals maxDepth contents ↔
      ∃ i line, (lineContents contents.toList)[i]? = some line ∧ r.number = i + 1 ∧
        r.line = String.ofList line ∧ trim line ≠ [] ∧
        Tag.ofText maxDepth (String.ofList line) = .error r.fault := by
  unfold refusals
  simp only [List.mem_filterMap, refusal?_eq_some_iff, Prod.exists,
    List.mk_mem_zipIdx_iff_le_and_getElem?_sub]
  constructor
  · rintro ⟨line, number, ⟨hnumber, hline⟩, rfl, hrefused⟩
    exact ⟨r.number - 1, line, hline, by omega, hrefused⟩
  · rintro ⟨i, line, hline, hnumber, hrefused⟩
    exact ⟨line, i + 1, ⟨by omega, hline⟩, hnumber, hrefused⟩

/-- The lines that are refused, without their numbers. -/
theorem map_refusals (maxDepth : Nat) (contents : String) :
    (refusals maxDepth contents).map (fun r => (r.line, r.fault)) =
      refused maxDepth (filledLines contents) := by
  unfold refusals filledLines refused
  generalize lineContents contents.toList = lines
  -- Where numbering starts does not matter, and it is one more for each line.
  generalize 1 = number
  induction lines generalizing number with
  | nil => rfl
  | cons line lines ih =>
      have hrest := ih (number + 1)
      by_cases hblank : trim line = []
      · have hnone : refusal? maxDepth line number = none := by simp [refusal?, hblank]
        simpa [hnone, hblank] using hrest
      · cases hread : Tag.ofText maxDepth (String.ofList line) with
        | ok t =>
            have hnone : refusal? maxDepth line number = none := by simp [refusal?, hread]
            simpa [hnone, hblank, hread] using hrest
        | error fault =>
            have hsome : refusal? maxDepth line number =
                some ⟨number, String.ofList line, fault⟩ := by
              simp [refusal?, hblank, hread]
            simpa [hsome, hblank, hread] using hrest

section

variable {arguments : List String} {environment : Environment} {surroundings : Surroundings}
  {job : Job} {contents : String}

/-- A run over narrow lines writes one diagnostic for each line that is refused, in the order
    of the lines. -/
theorem stderr_eq_refusals (hprepared : Job.prepare arguments environment = .ok job)
    (hfetched : surroundings.fetch job.input = .ok contents)
    (hnarrow : Narrow job.limits.maxDepth (filledLines contents)) :
    (run arguments environment surroundings).stderr =
      String.join ((refusals job.limits.maxDepth contents).map
        fun r => r.diagnostic job.input.label ++ "\n") := by
  rw [run_eq_of_narrow hprepared hfetched hnarrow, Job.outcomeOf, ← map_refusals, List.map_map]
  rfl

/-- All diagnostics of a run show the number one. In a run over narrow lines there is one
    diagnostic for each line that is not blank and cannot be read, and it shows the line as
    the first and only one of its source. So its number within the input is shown of the
    first line, and of no other. -/
theorem run_shows_first_line (h : ReadsLines arguments environment surroundings job contents)
    (hnarrow : Narrow job.limits.maxDepth (filledLines contents)) :
    let lines := refusals job.limits.maxDepth contents
    let label := job.input.label
    (run arguments environment surroundings).stderr =
      String.join (lines.map fun r => r.diagnostic label ++ "\n") ∧
    (∀ r, r ∈ lines ↔
      ∃ i line, (lineContents contents.toList)[i]? = some line ∧ r.number = i + 1 ∧
        r.line = String.ofList line ∧ trim line ≠ [] ∧
        Tag.ofText job.limits.maxDepth (String.ofList line) = .error r.fault) ∧
    ∀ r ∈ lines,
      numberShown (r.diagnostic label) = some 1 ∧
      (numberShown (r.diagnostic label) = some r.number ↔ r.number = 1) ∧
      ∃ dashes, r.diagnostic label =
        String.ofList (heading r.fault.cause) ++ "\n-> " ++ label ++ "\n  |\n1 | " ++
          String.ofList (shown r.line.toList) ++ "\n  | " ++
          String.ofList (List.replicate dashes '-') ++ "^" := by
  intro lines label
  refine ⟨stderr_eq_refusals h.prepared h.fetched hnarrow, fun r => mem_refusals_iff,
    fun r hr => ?_⟩
  rcases mem_refusals_iff.mp hr with ⟨i, line, hline, -, hsource, -⟩
  have hfeed : '\n' ∉ r.line.toList := by
    rw [hsource, String.toList_ofList]
    exact lineFeed_notMem_of_mem_lineContents (List.mem_of_getElem? hline)
  have hnumber : numberShown (r.diagnostic label) = some 1 := by
    rw [Refusal.diagnostic, numberShown_render, (locate_of_notMem hfeed _).1]
  refine ⟨hnumber, ?_, render_of_notMem (r.fault.relabelled label) hfeed⟩
  rw [hnumber, Option.some_inj, eq_comm]

end

/-- The third line of a file, behind a blank one, is refused, and its diagnostic does not
    show the number three. -/
theorem number_shown_of_third_line :
    let contents := "#[a]\n\n#[b\n"
    let diagnostic := "Error: UnexpectedEndOfInput (Input ended early, expected `]`)\n-> x\n" ++
      "  |\n1 | #[b\n  | ---^"
    (lineContents contents.toList)[2]? = some "#[b".toList ∧ trim "#[b".toList ≠ [] ∧
    (Tag.ofText 64 "#[b").toOption = none ∧
    (run ["-f", "x", "--format", "canonical"] {} ⟨fun _ => .ok contents.toUTF8, .empty⟩).stderr =
      diagnostic ++ "\n" ∧
    numberShown diagnostic = some 1 ∧ numberShown diagnostic ≠ some 3 := by
  decide +kernel

/-- The same line among those that are refused. -/
theorem run_shows_first_line_third :
    let contents := "#[a]\n\n#[b\n"
    let surroundings : Surroundings := ⟨fun _ => .ok contents.toUTF8, .empty⟩
    let job : Job := ⟨.file "x", .canonical, {}, .warn⟩
    ReadsLines ["-f", "x", "--format", "canonical"] {} surroundings job contents ∧
    Narrow 64 (filledLines contents) ∧
    ∃ r ∈ refusals 64 contents, r.number = 3 ∧ r.line = "#[b" ∧
      numberShown (r.diagnostic "x") = some 1 ∧ numberShown (r.diagnostic "x") ≠ some r.number := by
  intro contents surroundings job
  have hreads : ReadsLines ["-f", "x", "--format", "canonical"] {} surroundings job contents :=
    ⟨rfl, by simp [job], textOfBytes_toUTF8 contents, Or.inl rfl⟩
  have hnarrow : Narrow 64 (filledLines contents) :=
    narrow_of_length_lt (by decide +kernel) 64
  rcases run_shows_first_line hreads hnarrow with ⟨-, hmem, hshown⟩
  have hrefused : (Tag.ofText 64 "#[b").toOption = none := by decide +kernel
  cases hread : Tag.ofText 64 "#[b" with
  | ok t =>
      rw [hread] at hrefused
      cases hrefused
  | error fault =>
      have hr : ⟨3, "#[b", fault⟩ ∈ refusals 64 contents :=
        (hmem _).mpr ⟨2, "#[b".toList, by decide +kernel, rfl, rfl, by decide +kernel, hread⟩
      rcases hshown _ hr with ⟨hone, hnumber, -⟩
      refine ⟨hreads, hnarrow, _, hr, rfl, rfl, hone, fun hthree => ?_⟩
      cases hnumber.mp hthree

end CommandLine

end Annotations
