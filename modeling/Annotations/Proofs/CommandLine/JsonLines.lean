import Annotations.Proofs.CommandLine.LineByLine
import Annotations.Proofs.Tag.Json

/-!
# The JSON Output Determines the Tags

A run that writes tags as JSON writes one document to a line, and from its output it is
known which tags it read, in which order. A document has no line feed in it, so the lines
of the output are the documents; and a document that was written for a tag that was read
determines the tag, since no double that is read is infinite or not a number.

A run that breaks down writes no documents for the lines behind, although some of them
may be lines that can be read. That happens: names can be as long as one likes, and a
tag that is left open behind a name too long for a caret at its end is such a line.

## Theorems

* `splitOn_json`: The lines of the output are the documents.
* `run_json_identifies`: The JSON text of a tag, and the JSON output of a run, determine
  what was written.
* `later_document_missing`: A run that breaks down in front of a line that can be read.
-/

namespace Annotations

namespace CommandLine

open Settings Text

variable {arguments : List String} {environment : Environment} {surroundings : Surroundings}
  {job : Job} {contents : String}

theorem isFinite_of_mem_accepted {maxDepth : Nat} {lines : List String} {t : Tag}
    (h : t ∈ accepted maxDepth lines) : t.IsFinite := by
  rcases mem_accepted_iff.mp h with ⟨line, -, hread⟩
  exact Tag.isFinite_of_ofSource hread

/-- The lines of the output are the documents of the tags, and nothing is left open. -/
theorem splitOn_json (hprepared : Job.prepare arguments environment = .ok job)
    (hfetched : surroundings.fetch job.input = .ok contents) (hformat : job.format = .json) :
    (run arguments environment surroundings).stdout.toList.splitOn '\n' =
      (accepted job.limits.maxDepth (reached job.limits.maxDepth (filledLines contents))).map
        (·.json.toList) ++ [[]] := by
  rw [stdout_eq hprepared hfetched, hformat, splitOn_join, List.map_map]
  · rfl
  · intro line hline hfeed
    rcases List.mem_map.mp hline with ⟨t, -, rfl⟩
    exact absurd (Tag.not_control_of_mem_json hfeed) (by decide)

/-- The JSON text of a tag determines the tag if all doubles in it are finite, and it has no
    control characters in it. So the output of a run has one document to a line for the tags
    that were read, in their order, and another run with the same output has read the same
    tags. This is so whatever the input and the log level are. The tags are those of the
    lines that are reached. The output has the documents of all lines that can be read
    exactly if none of these is behind a line on which the run breaks down, and narrow
    lines are all reached. -/
theorem run_json_identifies (arguments : List String) (environment : Environment)
    (surroundings : Surroundings) (job : Job) (contents : String) :
    (∀ t u : Tag, t.IsFinite → u.IsFinite → t.json = u.json → t = u) ∧
    (∀ t : Tag, ∀ c ∈ t.json.toList, 0x20 ≤ c.toNat) ∧
    (Job.prepare arguments environment = .ok job →
      surroundings.fetch job.input = .ok contents → job.format = .json →
      let lines := filledLines contents
      let tags := accepted job.limits.maxDepth (reached job.limits.maxDepth lines)
      let stdout := (run arguments environment surroundings).stdout
      stdout.toList.splitOn '\n' = tags.map (·.json.toList) ++ [[]] ∧
      (stdout.toList.splitOn '\n' =
          (accepted job.limits.maxDepth lines).map (·.json.toList) ++ [[]] ↔
        ∀ line ∈ unreached job.limits.maxDepth lines, ∀ t,
          Tag.ofText job.limits.maxDepth line ≠ .ok t) ∧
      (Narrow job.limits.maxDepth lines → unreached job.limits.maxDepth lines = []) ∧
      ∀ (arguments' : List String) (environment' : Environment) (surroundings' : Surroundings)
        (job' : Job) (contents' : String),
        Job.prepare arguments' environment' = .ok job' →
        surroundings'.fetch job'.input = .ok contents' → job'.format = .json →
        (run arguments' environment' surroundings').stdout = stdout →
        accepted job'.limits.maxDepth
          (reached job'.limits.maxDepth (filledLines contents')) = tags) := by
  refine ⟨fun t u => Tag.eq_of_json, fun t c => Tag.not_control_of_mem_json, ?_⟩
  intro hprepared hfetched hformat lines tags stdout
  have hlines : stdout.toList.splitOn '\n' = tags.map (·.json.toList) ++ [[]] :=
    splitOn_json hprepared hfetched hformat
  refine ⟨hlines, ?_, unreached_of_narrow, ?_⟩
  · -- What the lines that are not reached add is what is missing.
    have hall : accepted job.limits.maxDepth lines =
        tags ++ accepted job.limits.maxDepth (unreached job.limits.maxDepth lines) :=
      accepted_eq_append _ _
    rw [hlines, hall, ← accepted_eq_nil_iff, List.append_cancel_right_eq, List.map_append,
      List.self_eq_append_right, List.map_eq_nil_iff]
  intro arguments' environment' surroundings' job' contents' hprepared' hfetched' hformat' hout
  -- Outputs that agree have the same lines, and each line determines its tag.
  have hlines' := splitOn_json hprepared' hfetched' hformat'
  rw [hout, hlines, List.append_cancel_right_eq] at hlines'
  refine eq_of_map_eq (fun t ht u hu hjson => ?_) hlines'.symm
  exact Tag.eq_of_json (isFinite_of_mem_accepted ht) (isFinite_of_mem_accepted hu)
    (String.toList_inj.mp hjson)

/-- Two inputs that differ in white space and in a line that is refused, with one output. The
    string and the number that look alike otherwise are told apart. -/
theorem run_json_identifies_spaced :
    let contents := "#[ a ( b = \"]\\\" ) ]\n\n#[c"
    let contents' := "#[a(b=\"]\\\")]\r\n"
    let first := run ["--format", "json", "-f", "x"] {} ⟨fun _ => .ok contents.toUTF8, .empty⟩
    let second := run ["--format", "json"] {} ⟨fun _ => .error .missing, contents'.toUTF8⟩
    (first.stdout.toList.splitOn '\n').length = 2 ∧ second.stdout = first.stdout ∧
    accepted 64 (filledLines contents') = accepted 64 (filledLines contents) ∧
    Tag.json ⟨"a", [⟨"b", .string "1"⟩]⟩ ≠ Tag.json ⟨"a", [⟨"b", .integer 1⟩]⟩ := by
  intro contents contents' first second
  have hout : second.stdout = first.stdout := by decide +kernel
  have hnarrow : Narrow 64 (filledLines contents) := narrow_of_length_lt (by decide +kernel) 64
  have hnarrow' : Narrow 64 (filledLines contents') := narrow_of_length_lt (by decide +kernel) 64
  rcases run_json_identifies ["--format", "json", "-f", "x"] {}
    ⟨fun _ => .ok contents.toUTF8, .empty⟩ ⟨.file "x", .json, {}, .warn⟩ contents with
    ⟨htext, -, hrun⟩
  rcases hrun rfl (textOfBytes_toUTF8 contents) rfl with ⟨hdocuments, -, -, hsame⟩
  have hlines : first.stdout.toList.splitOn '\n' =
      (accepted 64 (reached 64 (filledLines contents))).map (·.json.toList) ++ [[]] := hdocuments
  have htags : accepted 64 (reached 64 (filledLines contents')) =
      accepted 64 (reached 64 (filledLines contents)) :=
    hsame ["--format", "json"] {} ⟨fun _ => .error .missing, contents'.toUTF8⟩
      ⟨.stdin, .json, {}, .warn⟩ contents' rfl (textOfBytes_toUTF8 contents') rfl hout
  rw [reached_of_narrow hnarrow, reached_of_narrow hnarrow'] at htags
  rw [reached_of_narrow hnarrow] at hlines
  refine ⟨?_, hout, htags, ?_⟩
  · have hone : (accepted 64 (filledLines contents)).length = 1 := by decide +kernel
    rw [hlines, List.length_append, List.length_map, hone]
    rfl
  · intro hjson
    cases htext _ _ (by decide) (by decide) hjson

/-- Names can be as long as one likes. -/
theorem isName_replicate {n : Nat} (hn : 5 < n) :
    IsName (String.ofList (List.replicate n 'a')) := by
  have hlength : (String.ofList (List.replicate n 'a')).length = n := by
    rw [String.length_ofList, List.length_replicate]
  refine ⟨?_, fun c hc => ?_, fun c hc => ?_, fun htrue => ?_, fun hfalse => ?_⟩
  · rw [String.toList_ofList, ne_eq, List.replicate_eq_nil_iff]
    omega
  · rw [String.toList_ofList] at hc
    rw [List.eq_of_mem_replicate hc]
    decide +kernel
  · rw [String.toList_ofList] at hc
    rw [List.eq_of_mem_replicate (List.mem_of_mem_head? hc)]
    decide +kernel
  · rw [htrue] at hlength
    exact absurd hlength (by rw [show "true".length = 4 from rfl]; omega)
  · rw [hfalse] at hlength
    exact absurd hlength (by rw [show "false".length = 5 from rfl]; omega)

/-- A tag that is left open behind its name is on one line. -/
theorem writable_open {name : String} (h : IsName name) : Writable ("#[" ++ name) := by
  have hsource : ("#[" ++ name).toList = '#' :: '[' :: name.toList := String.toList_append
  have hblank : ∀ c, isBlank c = true → c ∉ ("#[" ++ name).toList := by
    intro c hc hmem
    rw [hsource, List.mem_cons, List.mem_cons] at hmem
    rcases hmem with rfl | rfl | hmem
    · cases hc
    · cases hc
    · exact h.notMem_of_isBlank hc hmem
  refine ⟨hblank '\n' rfl, fun hlast => ?_, '#', ?_, by decide⟩
  · exact hblank '\r' rfl (List.mem_of_getLast? hlast)
  · rw [hsource]
    exact List.mem_cons_self

/-- The first of two lines is a tag left open, far too wide for a caret below its end. The
    second line can be read, but it is not reached, and its document is missing. -/
theorem later_document_missing :
    let wide := "#[" ++ String.ofList (List.replicate 70000 'a')
    let contents := String.join ([wide, "#[b]"].map (· ++ "\n"))
    let outcome := run ["--format", "json"] {} ⟨fun _ => .error .missing, contents.toUTF8⟩
    filledLines contents = [wide, "#[b]"] ∧
    (accepted 64 (filledLines contents)).map Tag.json =
      ["\x7b\"identity\":\"b\",\"attrs\":[]\x7d"] ∧
    outcome.exitCode = 101 ∧ outcome.stdout = "" := by
  have hname : IsName (String.ofList (List.replicate 70000 'a')) := isName_replicate (by decide)
  have hlong : Diagnostic.maxWidth ≤ 2 + (String.ofList (List.replicate 70000 'a')).length := by
    rw [String.length_ofList, List.length_replicate]
    decide
  have hsize : 2 + byteLength (String.ofList (List.replicate 70000 'a')).toList < UInt32.size := by
    rw [String.toList_ofList, byteLength_replicate]
    decide
  -- Of the name no more is needed than that it is one, and how long it is.
  generalize String.ofList (List.replicate 70000 'a') = name at hname hlong hsize
  intro wide contents outcome
  have hlines : filledLines contents = [wide, "#[b]"] := by
    refine filledLines_join fun line hline => ?_
    rw [List.mem_cons, List.mem_singleton] at hline
    rcases hline with rfl | rfl
    · exact writable_open hname
    · exact ⟨by decide, by decide, '#', by decide, by decide⟩
  have hprepared : Job.prepare ["--format", "json"] {} = .ok ⟨.stdin, .json, {}, .warn⟩ := rfl
  have hrun : outcome = _ := run_eq_reached hprepared (textOfBytes_toUTF8 contents)
  have hbreaks : breaksOff 64 wide = true := breaksOff_open hname hlong hsize 64
  rw [hlines, reached_cons_of_breaksOff hbreaks, List.any_cons, hbreaks] at hrun
  have haccepted : accepted 64 [wide, "#[b]"] = accepted 64 ["#[b]"] :=
    (cons_of_error (Tag.ofText_open hname 64) ["#[b]"]).1
  refine ⟨hlines, ?_, ?_, ?_⟩
  · rw [hlines, haccepted]
    decide +kernel
  · rw [hrun]
    rfl
  · rw [hrun]
    rfl

end CommandLine

end Annotations
