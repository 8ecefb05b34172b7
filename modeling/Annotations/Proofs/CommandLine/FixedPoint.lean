import Annotations.Proofs.CommandLine.LineByLine
import Annotations.Proofs.Tag.OneLine

/-!
# The Canonical Output Is a Fixed Point

A run that writes tags in their canonical form can be run again on what it wrote, and
nothing changes. Blank lines, lines that were refused, spaces and ways to write a number
are gone after the first run, and what is left is written the same way again.

Two things come together. The text of a tag that was read is read as the same tag, by
whichever label it goes. And the lines that were written are the lines that are found
again, which is where the texts have to be lines: none of them has a line feed in it, is
blank or ends in a carriage return that would be taken for a part of the line feed.

## Theorems

* `reread`: Tags that are read from their own texts.
* `run_canonical_again`: A run over canonical output changes nothing.
-/

namespace Annotations

namespace CommandLine

open Settings Text

/-- Tags that are read from their own texts are read again, and nothing is refused. -/
theorem reread {maxDepth : Nat} {tags : List Tag}
    (h : ∀ t ∈ tags, Tag.ofText maxDepth t.text = .ok t) :
    accepted maxDepth (tags.map Tag.text) = tags ∧ refused maxDepth (tags.map Tag.text) = [] := by
  induction tags with
  | nil => exact ⟨rfl, rfl⟩
  | cons t tags ih =>
      rw [List.forall_mem_cons] at h
      rcases ih h.2 with ⟨haccepted, hrefused⟩
      rcases cons_of_ok h.1 (tags.map Tag.text) with ⟨hcons, hcons'⟩
      rw [List.map_cons, hcons, hcons', haccepted, hrefused]
      exact ⟨rfl, rfl⟩

section

variable {arguments arguments' : List String} {environment environment' : Environment}
  {surroundings surroundings' : Surroundings} {job job' : Job} {contents : String}

/-- A run over the canonical output of a run reads the same tags, writes the same output,
    refuses nothing and succeeds. The second run may read its input from elsewhere, but it
    has to allow for maps that nest as deeply. The tags are those of all lines if the first
    run has not broken down, and otherwise those of the lines that it reached. -/
theorem run_canonical_again (h : ReadsLines arguments environment surroundings job contents)
    (h' : ReadsLines arguments' environment' surroundings' job'
      (run arguments environment surroundings).stdout)
    (hformat : job.format = .canonical) (hformat' : job'.format = .canonical)
    (hlimits : job'.limits = job.limits) :
    let out := (run arguments environment surroundings).stdout
    run arguments' environment' surroundings' = { exitCode := 0, stdout := out, stderr := "" } ∧
    accepted job'.limits.maxDepth (filledLines out) =
      accepted job.limits.maxDepth (reached job.limits.maxDepth (filledLines contents)) ∧
    (Narrow job.limits.maxDepth (filledLines contents) →
      accepted job'.limits.maxDepth (filledLines out) =
        accepted job.limits.maxDepth (filledLines contents)) := by
  intro out
  set lines := reached job.limits.maxDepth (filledLines contents) with hreached
  -- What the first run wrote is the texts of the tags that it read, a line for each.
  have hout : out = _ := stdout_eq h.prepared h.fetched
  have hread : ∀ t ∈ accepted job.limits.maxDepth lines,
      Tag.ofText job.limits.maxDepth t.text = .ok t ∧ Writable t.text := by
    intro t ht
    rcases mem_accepted_iff.mp ht with ⟨line, hline, hread⟩
    have hfilled : line ∈ filledLines contents := (List.takeWhile_sublist _).subset hline
    rcases Tag.printable_of_ofSource hread with ⟨hprintable, hnesting⟩
    exact ⟨hprintable.ofSource_text hnesting Source.defaultLabel,
      Tag.writable_text hread (lineFeed_notMem_of_mem_filledLines hfilled)⟩
  have hnarrow : Narrow job.limits.maxDepth (filledLines contents) →
      accepted job.limits.maxDepth lines =
        accepted job.limits.maxDepth (filledLines contents) := by
    intro hnarrow
    rw [hreached, reached_of_narrow hnarrow]
  rw [← hreached, hformat] at hout
  generalize accepted job.limits.maxDepth lines = tags at hout hread hnarrow ⊢
  have hlines : filledLines out = tags.map Tag.text := by
    rw [hout]
    refine filledLines_join fun line hline => ?_
    rcases List.mem_map.mp hline with ⟨t, ht, rfl⟩
    exact (hread t ht).2
  rcases reread fun t ht => (hread t ht).1 with ⟨haccepted, hrefused⟩
  rw [← hlimits, ← hlines] at haccepted hrefused
  refine ⟨?_, haccepted, fun h => haccepted.trans (hnarrow h)⟩
  rw [run_eq_of_narrow h'.prepared h'.fetched (narrow_of_refused_eq_nil hrefused),
    Job.outcomeOf, haccepted, hrefused, hformat', hout, List.map_map]
  rfl

end

/-- The lines of a file are read and written to the standard output, which is then read
    from the standard input. A carriage return in a string is kept, and one at the end of a
    line is not. -/
theorem run_canonical_again_file :
    let contents := "#[ a ( b=[1,2.50], c=\"\r\") ]\r\n\n#[d\n#[ e ]"
    let surroundings : Surroundings := ⟨fun _ => .ok contents.toUTF8, .empty⟩
    let out := (run ["--format", "canonical", "-f", "x"] {} surroundings).stdout
    out = "#[a(b=[1.0, 2.5], c=\"\r\")]\n#[e]\n" ∧
    run ["--format", "canonical"] {} ⟨fun _ => .error .missing, out.toUTF8⟩ =
      { exitCode := 0, stdout := out, stderr := "" } := by
  intro contents surroundings out
  have hfirst : ReadsLines ["--format", "canonical", "-f", "x"] {} surroundings
      ⟨.file "x", .canonical, {}, .warn⟩ contents :=
    ⟨rfl, by simp, textOfBytes_toUTF8 contents, Or.inl rfl⟩
  have hsecond : ReadsLines ["--format", "canonical"] {} ⟨fun _ => .error .missing, out.toUTF8⟩
      ⟨.stdin, .canonical, {}, .warn⟩ out :=
    ⟨rfl, by simp, textOfBytes_toUTF8 out, Or.inl rfl⟩
  refine ⟨?_, (run_canonical_again hfirst hsecond rfl rfl rfl).1⟩
  decide +kernel

end CommandLine

end Annotations
