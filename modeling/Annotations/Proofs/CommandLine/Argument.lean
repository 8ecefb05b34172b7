import Annotations.Proofs.CommandLine.LineByLine
import Annotations.Proofs.Tag.Trimmed

/-!
# An Annotation as an Argument

A text that is given as an argument is cut into lines like any other input, and what is
written is the sum of what its lines are read as. A text on one line that is not blank is
therefore read as it is, and the outcome is the tag or the fault of the text.

Other texts need not be. A tag may go on over several lines, since line feeds are white
space between tokens and may also stand in strings. Its first line is then no tag by
itself, because no tag is the start of another one; so that line is refused, and the run
does not write the tag. And a text of white space has no line that is read at all: the run
writes nothing and succeeds, although the text is no tag.

A fault that is too far into its line has no diagnostic. There the run breaks down, and so
does whoever asks for the diagnostic of the text as a whole.

## Main definitions

* `TakesArgument`: A run over an argument.
* `Job.answer`: What is written on a text that is read as a whole.

## Theorems

* `Job.processLine_eq_answer`: A line of an argument is read as a text by itself.
* `TakesArgument.run_eq_sum`: A run over an argument is the sum over its lines.
* `TakesArgument.eq_answer_iff`: Which tags are written.
* `run_argument`: What is written on an argument.
-/

namespace Annotations

open Text

/-- Nothing but white space is left out if a text is trimmed. -/
theorem Text.isBlank_of_trimEnd_append {a b : List Char} (h : trimEnd (a ++ b) = trimEnd a) :
    ∀ c ∈ b, isBlank c = true := by
  rw [← trimEnd_eq_nil_iff]
  by_contra hb
  have hlength := congrArg List.length h
  have hle := (trimEnd_sublist a).length_le
  have hpos := List.length_pos_iff.mpr hb
  rw [trimEnd_append a hb, List.length_append] at hlength
  omega

/-- White space is not a tag. -/
theorem Tag.exists_ofText_eq_error_of_blank {s : String} (h : ∀ c ∈ s.toList, isBlank c = true)
    (maxDepth : Nat) : ∃ fault, Tag.ofText maxDepth s = .error fault := by
  cases hread : Tag.ofText maxDepth s with
  | error fault => exact ⟨fault, rfl⟩
  | ok t =>
      rcases Tag.ofSource_eq_ok_iff.mp hread with ⟨body, stop, hcut, -, -, hderives, -⟩
      rw [hcut.body_eq_nil_iff.mpr h] at hderives
      cases hderives

namespace Tag

variable {maxDepth : Nat} {s line : String} {others : List String} {t u : Tag}

/-- A text with one filled line is read as a tag exactly if that line is. -/
theorem ofText_filledLine (hlines : filledLines s = [line]) :
    Tag.ofText maxDepth s = .ok t ↔ Tag.ofText maxDepth line = .ok t := by
  rcases exists_of_filledLines_eq_cons hlines with
    ⟨before, ending, after, rfl, hbefore, hending, hafter⟩
  have hend : ∀ c ∈ (ending ++ after).toList, isBlank c = true := by
    rw [String.toList_append]
    exact List.forall_mem_append.mpr ⟨hending, hafter.mp rfl⟩
  exact ofText_surround hbefore hend line

/-- If the first filled line of a tag is a tag, there are no other lines: a tag is not the
    start of another one. -/
theorem others_eq_nil (hread : Tag.ofText maxDepth s = .ok t)
    (hlines : filledLines s = line :: others) (hline : Tag.ofText maxDepth line = .ok u) :
    others = [] := by
  rcases exists_of_filledLines_eq_cons hlines with
    ⟨before, ending, after, rfl, hbefore, -, hafter⟩
  have hfirst : Tag.ofText maxDepth (before ++ line) = .ok u :=
    (ofText_blank_append hbefore line).mpr hline
  have hstarts : trimEnd (before ++ line).toList <+:
      (before ++ (line ++ (ending ++ after))).toList := by
    rcases exists_trimEnd_append (before ++ line).toList with ⟨w, hw, -⟩
    refine ⟨w ++ (ending ++ after).toList, ?_⟩
    rw [← List.append_assoc, ← hw]
    simp
  have htrimmed := trimEnd_eq_of_starts hfirst hread hstarts
  rw [← String.append_assoc, String.toList_append] at htrimmed
  have hblank := isBlank_of_trimEnd_append htrimmed
  rw [String.toList_append, List.forall_mem_append] at hblank
  exact hafter.mpr hblank.2

end Tag

namespace CommandLine

theorem Outcome.append_empty (a : Outcome) : a.append {} = a := by
  have hcode : max a.exitCode 0 = a.exitCode := by
    show (if a.exitCode ≤ 0 then 0 else a.exitCode) = a.exitCode
    split
    · next hle => exact (UInt8.le_antisymm hle (UInt8.le_iff_toNat_le.mpr (Nat.zero_le _))).symm
    · rfl
  simp only [append, hcode, String.append_empty, ite_self]

/-- A run whose input is an argument. Its log level is one at which nothing is logged, since
    outcomes leave out the lines of a log. -/
structure TakesArgument (arguments : List String) (environment : Environment) (job : Job)
    (s : String) : Prop where
  prepared : Job.prepare arguments environment = .ok job
  input_eq : job.input = .argument s
  quiet : job.logLevel = .warn ∨ job.logLevel = .error

/-- What is written on a text that is read as a whole: its tag, or the diagnostic of its
    fault. Where there is none, whoever asks for it breaks down. -/
def Job.answer (job : Job) (s : String) : Outcome :=
  match Tag.ofText job.limits.maxDepth s with
  | .ok t => { stdout := job.format.render t ++ "\n" }
  | .error fault => if fault.fits s then .failure (fault.render s) else .breakdown

theorem Job.answer_of_ok {job : Job} {s : String} {t : Tag}
    (h : Tag.ofText job.limits.maxDepth s = .ok t) :
    job.answer s = { stdout := job.format.render t ++ "\n" } := by
  simp only [answer, h]

/-- A line of an argument is read as a text without a name. -/
theorem Job.processLine_eq_answer {job : Job} {s : String} (h : job.input = .argument s)
    (line : String) : job.processLine line.toList = job.answer line := by
  simp only [processLine, h, Input.label, String.ofList_toList, answer, Tag.ofText]
  cases Tag.ofSource Source.defaultLabel job.limits.maxDepth line with
  | ok t => rfl
  | error fault =>
      simp only [Fault.render?]
      split <;> rfl

section

variable {arguments : List String} {environment : Environment} {job : Job} {s : String}

namespace TakesArgument

/-- A run over an argument writes what its job writes on the lines. -/
theorem run_eq (h : TakesArgument arguments environment job s) (surroundings : Surroundings) :
    run arguments environment surroundings =
      ((filledLines s).map fun line => job.processLine line.toList).foldr Outcome.append {} := by
  simp only [run, h.prepared, h.input_eq, Surroundings.fetch, Job.finish, Job.process_eq]

/-- A run over an argument is the sum of what its lines are read as, each by itself. -/
theorem run_eq_sum (h : TakesArgument arguments environment job s) (surroundings : Surroundings) :
    run arguments environment surroundings =
      ((filledLines s).map job.answer).foldr Outcome.append {} := by
  simp only [h.run_eq, Job.processLine_eq_answer h.input_eq]

/-- One line that is not blank is read as a text by itself. -/
theorem run_eq_answer (h : TakesArgument arguments environment job s) {surroundings : Surroundings}
    {line : String} (hlines : filledLines s = [line]) :
    run arguments environment surroundings = job.answer line := by
  rw [h.run_eq_sum, hlines, List.map_singleton, List.foldr_cons, List.foldr_nil,
    Outcome.append_empty]

/-- A run that succeeds has read all of the lines. -/
theorem exists_tag_of_exitCode (h : TakesArgument arguments environment job s)
    {surroundings : Surroundings} (hexit : (run arguments environment surroundings).exitCode = 0) :
    ∀ line ∈ filledLines s, ∃ t, Tag.ofText job.limits.maxDepth line = .ok t := by
  rw [h.run_eq, Job.foldr_processLine, Job.exitCode_outcomeOf_eq_zero_iff] at hexit
  have hnone : refused job.limits.maxDepth (filledLines s) = [] := by
    rw [← reached_of_any_eq_false hexit.1]
    exact hexit.2
  intro line hline
  cases hread : Tag.ofText job.limits.maxDepth line with
  | ok t => exact ⟨t, rfl⟩
  | error fault => exact absurd hread (refused_eq_nil_iff.mp hnone line hline fault)

/-- A tag is written exactly if it is all on one line. -/
theorem eq_answer_iff (h : TakesArgument arguments environment job s) (surroundings : Surroundings)
    {t : Tag} (hread : Tag.ofText job.limits.maxDepth s = .ok t) :
    run arguments environment surroundings = job.answer s ↔ ∃ line, filledLines s = [line] := by
  constructor
  · intro hanswer
    have hexit : (run arguments environment surroundings).exitCode = 0 := by
      rw [hanswer, Job.answer_of_ok hread]
    have htags := h.exists_tag_of_exitCode hexit
    cases hlines : filledLines s with
    | nil =>
        -- White space is no tag.
        rcases Tag.exists_ofText_eq_error_of_blank (filledLines_eq_nil_iff.mp hlines)
          job.limits.maxDepth with ⟨fault, hfault⟩
        rw [hread] at hfault
        cases hfault
    | cons line others =>
        rcases htags line (by simp [hlines]) with ⟨u, hu⟩
        exact ⟨line, by rw [Tag.others_eq_nil hread hlines hu]⟩
  · rintro ⟨line, hlines⟩
    have hline : Tag.ofText job.limits.maxDepth line = .ok t :=
      (Tag.ofText_filledLine hlines).mp hread
    rw [h.run_eq_answer hlines, Job.answer_of_ok hline, Job.answer_of_ok hread]

end TakesArgument

/-- What is written on an argument is the sum of what its lines are read as. A text on one
    line that is not blank is read as it is. Of a text that is read as a tag, the tag is
    written exactly if one line of it is not blank. And nothing is written on a text of
    white space, though such a text is refused. -/
theorem run_argument (h : TakesArgument arguments environment job s)
    (surroundings : Surroundings) :
    let outcome := run arguments environment surroundings
    outcome = ((filledLines s).map job.answer).foldr Outcome.append {} ∧
    ('\n' ∉ s.toList → (∃ c ∈ s.toList, isBlank c = false) → outcome = job.answer s) ∧
    (∀ t, Tag.ofText job.limits.maxDepth s = .ok t →
      (outcome = job.answer s ↔ ∃ line, filledLines s = [line])) ∧
    ((∀ c ∈ s.toList, isBlank c = true) →
      outcome = {} ∧ ∃ fault, Tag.ofText job.limits.maxDepth s = .error fault) := by
  intro outcome
  have hsum : outcome = _ := h.run_eq_sum surroundings
  refine ⟨hsum, fun hfeed hfilled => ?_, fun t => h.eq_answer_iff surroundings, fun hblank => ?_⟩
  · exact h.run_eq_answer (filledLines_of_notMem hfeed hfilled)
  · refine ⟨?_, Tag.exists_ofText_eq_error_of_blank hblank job.limits.maxDepth⟩
    rw [hsum, filledLines_eq_nil_iff.mpr hblank]
    rfl

end

/-- A tag with a line feed on either side of it is written. -/
theorem run_argument_surrounded :
    let job : Job := ⟨.argument "\n#[ a ]\n", .canonical, {}, .warn⟩
    let outcome := run ["\n#[ a ]\n", "--format", "canonical"] {} ⟨fun _ => .error .missing, .empty⟩
    TakesArgument ["\n#[ a ]\n", "--format", "canonical"] {} job "\n#[ a ]\n" ∧
    filledLines "\n#[ a ]\n" = ["#[ a ]"] ∧ outcome = job.answer "\n#[ a ]\n" ∧
    outcome.stdout = "#[a]\n" := by
  intro job outcome
  have htakes : TakesArgument ["\n#[ a ]\n", "--format", "canonical"] {} job "\n#[ a ]\n" :=
    ⟨rfl, rfl, Or.inl rfl⟩
  have hlines : filledLines "\n#[ a ]\n" = ["#[ a ]"] := by decide +kernel
  have htext : (Tag.ofText job.limits.maxDepth "\n#[ a ]\n").toOption.map Tag.text =
      some "#[a]" := by
    decide +kernel
  cases hread : Tag.ofText job.limits.maxDepth "\n#[ a ]\n" with
  | error fault =>
      rw [hread] at htext
      cases htext
  | ok t =>
      rw [hread] at htext
      have hanswer : outcome = job.answer "\n#[ a ]\n" :=
        ((run_argument htakes _).2.2.1 t hread).mpr ⟨_, hlines⟩
      have hstdout : (job.answer "\n#[ a ]\n").stdout = "#[a]\n" := by
        rw [Job.answer_of_ok hread]
        exact congrArg (· ++ "\n") (Option.some.inj htext)
      exact ⟨htakes, hlines, hanswer, (congrArg Outcome.stdout hanswer).trans hstdout⟩

/-- A tag on two lines is not written, and white space is not refused. -/
theorem argument_not_read_as_a_whole :
    let surroundings : Surroundings := ⟨fun _ => .error .missing, .empty⟩
    let broken := run ["#[a\n]", "--format", "canonical"] {} surroundings
    let blank := run [" ", "--format", "canonical"] {} surroundings
    (Tag.ofText 64 "#[a\n]").toOption.map Tag.text = some "#[a]" ∧
    broken.exitCode = 1 ∧ broken.stdout = "" ∧
    (Tag.ofText 64 " ").toOption = none ∧ blank = {} := by
  decide +kernel

end CommandLine

end Annotations
