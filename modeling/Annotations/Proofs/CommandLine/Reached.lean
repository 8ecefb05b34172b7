import Annotations.Diagnostic
import Annotations.Proofs.Tag.Spacing
import Annotations.Proofs.Text.Places

/-!
# The Lines That a Run Reaches

What becomes of lines that are read one by one: each is read as a tag or refused with a
fault. A fault too far into its line has no diagnostic, and a run breaks down on such a
line. Only the lines in front of the first one of these are `reached`, and what is said
of a run is said of them.

All lines are reached if they are `Narrow`: no fault is in a column that is too great for
a caret. Lines that are not too long are narrow, and so are lines of which none is
refused. But there are lines on which a run breaks down, among them every tag that is
left open behind a name which is long enough.

## Main definitions

* `accepted`, `refused`: What becomes of lines that are read one by one.
* `breaksOff`: A line on which a run breaks down.
* `reached`, `unreached`: The lines in front of the first one on which a run breaks down,
  and those from there on.
* `Narrow`: Lines whose faults are in columns that a caret can be put in.

## Theorems

* `Tag.ofText_open`: A tag that is left open is refused where it ends.
* `breaksOff_open`: A run breaks down on a tag that is left open behind a long name.
* `reached_of_narrow`: All narrow lines are reached.
* `accepted_eq_append`: Which tags are read, and which are not.
-/

namespace Annotations

open Source Text

/-- A tag that is left open behind its name is refused where it ends. -/
theorem Tag.ofText_open {name : String} (h : IsName name) (maxDepth : Nat) :
    Tag.ofText maxDepth ("#[" ++ name) =
      .error ⟨.unexpectedEnd "`]`", .ofOffset defaultLabel (2 + byteLength name.toList)⟩ := by
  have hcut : Token.Cut defaultLabel 0 ("#[" ++ name).toList
      [⟨.hash, "#", .ofLength defaultLabel 0 1⟩,
        ⟨.openBracket, "[", .ofLength defaultLabel 1 1⟩,
        ⟨.identifier, name, .ofLength defaultLabel 2 (byteLength name.toList)⟩,
        .endOfInput (.ofOffset defaultLabel (2 + byteLength name.toList))] := by
    have hhash : Token.Kind.hash.Writes ['#'] ['#'] := ⟨rfl, rfl⟩
    have hbracket : Token.Kind.openBracket.Writes ['['] ['['] := ⟨rfl, rfl⟩
    have hname : Token.Cut defaultLabel 2 (name.toList ++ []) _ :=
      .token (isName_iff_writes.mp h) (Token.Kind.stopsBefore_nil _) (.done _)
    rw [List.append_nil, String.ofList_toList] at hname
    rw [String.toList_append]
    exact .token hhash trivial (.token hbracket trivial hname)
  rw [Tag.ofText_of_scan (Token.scanFrom_of_cut hcut)]
  rfl

namespace CommandLine

variable {maxDepth : Nat} {line : String} {lines : List String}

/-- The tags that lines are read as, in the order of the lines. -/
def accepted (maxDepth : Nat) (lines : List String) : List Tag :=
  lines.filterMap fun line => (Tag.ofText maxDepth line).toOption

/-- The lines that are refused and their faults, in the order of the lines. -/
def refused (maxDepth : Nat) (lines : List String) : List (String × Fault) :=
  lines.filterMap fun line => match Tag.ofText maxDepth line with
    | .ok _ => none
    | .error fault => some (line, fault)

theorem mem_accepted_iff {t : Tag} :
    t ∈ accepted maxDepth lines ↔ ∃ line ∈ lines, Tag.ofText maxDepth line = .ok t := by
  unfold accepted
  rw [List.mem_filterMap]
  refine exists_congr fun line => and_congr_right fun _ => ?_
  cases Tag.ofText maxDepth line with
  | ok u => simp [Except.toOption]
  | error fault => simp [Except.toOption]

theorem accepted_eq_nil_iff :
    accepted maxDepth lines = [] ↔ ∀ line ∈ lines, ∀ t, Tag.ofText maxDepth line ≠ .ok t := by
  simp only [List.eq_nil_iff_forall_not_mem, mem_accepted_iff, not_exists, not_and]
  exact ⟨fun h line hline t => h t line hline, fun h t line hline => h line hline t⟩

/-- A line that can be read adds to the tags. -/
theorem cons_of_ok {t : Tag} (h : Tag.ofText maxDepth line = .ok t) (lines : List String) :
    accepted maxDepth (line :: lines) = t :: accepted maxDepth lines ∧
      refused maxDepth (line :: lines) = refused maxDepth lines := by
  unfold accepted refused
  constructor
  · rw [List.filterMap_cons_some]
    rw [h]
    rfl
  · rw [List.filterMap_cons_none]
    rw [h]

/-- A line that cannot be read adds to the faults. -/
theorem cons_of_error {fault : Fault} (h : Tag.ofText maxDepth line = .error fault)
    (lines : List String) :
    accepted maxDepth (line :: lines) = accepted maxDepth lines ∧
      refused maxDepth (line :: lines) = (line, fault) :: refused maxDepth lines := by
  unfold accepted refused
  constructor
  · rw [List.filterMap_cons_none]
    rw [h]
    rfl
  · rw [List.filterMap_cons_some]
    rw [h]

/-- Nothing is refused exactly if every line can be read. -/
theorem refused_eq_nil_iff :
    refused maxDepth lines = [] ↔
      ∀ line ∈ lines, ∀ fault, Tag.ofText maxDepth line ≠ .error fault := by
  unfold refused
  rw [List.filterMap_eq_nil_iff]
  refine forall₂_congr fun line _ => ?_
  cases Tag.ofText maxDepth line with
  | ok t => simp
  | error fault => simp

/-- A run breaks down on the line: it is refused, and its fault has no diagnostic. -/
def breaksOff (maxDepth : Nat) (line : String) : Bool :=
  match Tag.ofText maxDepth line with
  | .ok _ => false
  | .error fault => !fault.fits line

/-- The lines in front of the first one on which a run breaks down. -/
def reached (maxDepth : Nat) (lines : List String) : List String :=
  lines.takeWhile fun line => !breaksOff maxDepth line

/-- The first line on which a run breaks down, and the lines behind it. -/
def unreached (maxDepth : Nat) (lines : List String) : List String :=
  lines.dropWhile fun line => !breaksOff maxDepth line

/-- The fault of every line that is refused is in a column below the limit of padding. -/
def Narrow (maxDepth : Nat) (lines : List String) : Prop :=
  ∀ line ∈ lines, ∀ fault, Tag.ofText maxDepth line = .error fault →
    (locate line.toList fault.position.offset.toNat).column < Diagnostic.maxWidth

theorem breaksOff_of_ok {t : Tag} (h : Tag.ofText maxDepth line = .ok t) :
    breaksOff maxDepth line = false := by
  simp only [breaksOff, h]

theorem breaksOff_of_error {fault : Fault} (h : Tag.ofText maxDepth line = .error fault) :
    breaksOff maxDepth line = !fault.fits line := by
  simp only [breaksOff, h]

theorem reached_cons_of_not (h : breaksOff maxDepth line = false) :
    reached maxDepth (line :: lines) = line :: reached maxDepth lines := by
  rw [reached, List.takeWhile_cons_of_pos (by rw [h]; rfl)]
  rfl

theorem reached_cons_of_breaksOff (h : breaksOff maxDepth line = true) :
    reached maxDepth (line :: lines) = [] := by
  rw [reached, List.takeWhile_cons_of_neg (by rw [h]; exact Bool.false_ne_true)]

/-- A run breaks down on a tag that is left open behind a long name. -/
theorem breaksOff_open {name : String} (h : IsName name)
    (hlong : Diagnostic.maxWidth ≤ 2 + name.length)
    (hsize : 2 + byteLength name.toList < UInt32.size) (maxDepth : Nat) :
    breaksOff maxDepth ("#[" ++ name) = true := by
  have hsource : ("#[" ++ name).toList = '#' :: '[' :: name.toList := String.toList_append
  have hfeed : '\n' ∉ ("#[" ++ name).toList := by
    simp [hsource, h.notMem_of_isBlank (c := '\n') rfl]
  have hbytes : byteLength ("#[" ++ name).toList = 2 + byteLength name.toList := by
    rw [hsource, byteLength_cons, byteLength_cons, ← Nat.add_assoc]
    rfl
  -- The fault is at the end of the only line, which does not start with a space.
  have hplace := locate_of_byteLength_le (Nat.le_of_eq hbytes)
  rw [lineBefore_of_notMem hfeed, hsource] at hplace
  have hindent : Diagnostic.indent ('#' :: '[' :: name.toList) = 0 := rfl
  have hwidth : Diagnostic.caretWidth (locate ("#[" ++ name).toList (2 + byteLength name.toList)) =
      2 + name.length + 1 := by
    rw [hsource, hplace]
    simp only [Diagnostic.caretWidth, hindent, List.length_cons, String.length_toList]
    omega
  rw [breaksOff_of_error (Tag.ofText_open h maxDepth), Fault.fits, Token.toNat_ofOffset _ hsize,
    hwidth, decide_eq_false (by omega)]
  rfl

theorem Narrow.breaksOff (h : Narrow maxDepth lines) (hline : line ∈ lines) :
    breaksOff maxDepth line = false := by
  cases hread : Tag.ofText maxDepth line with
  | ok t => exact breaksOff_of_ok hread
  | error fault =>
      rw [breaksOff_of_error hread, Fault.fits_of_column_lt (h line hline fault hread)]
      rfl

/-- Lines among narrow ones are narrow. -/
theorem Narrow.mono {others : List String} (h : Narrow maxDepth lines) (hsub : others ⊆ lines) :
    Narrow maxDepth others :=
  fun line hline => h line (hsub hline)

/-- Lines that are not too long are narrow. -/
theorem narrow_of_length_lt (h : ∀ line ∈ lines, line.length < Diagnostic.maxWidth)
    (maxDepth : Nat) : Narrow maxDepth lines := by
  intro line hline fault _
  have hcolumn := column_locate_le line.toList fault.position.offset.toNat
  rw [String.length_toList] at hcolumn
  exact Nat.lt_of_le_of_lt hcolumn (h line hline)

/-- Lines of which none is refused are narrow. -/
theorem narrow_of_refused_eq_nil (h : refused maxDepth lines = []) : Narrow maxDepth lines :=
  fun line hline fault hread => absurd hread (refused_eq_nil_iff.mp h line hline fault)

theorem any_breaksOff_of_narrow (h : Narrow maxDepth lines) :
    lines.any (breaksOff maxDepth) = false := by
  refine List.any_eq_false.mpr fun line hline => ?_
  rw [h.breaksOff hline]
  exact Bool.false_ne_true

/-- All lines are reached if a run breaks down on none of them. -/
theorem reached_of_any_eq_false (h : lines.any (breaksOff maxDepth) = false) :
    reached maxDepth lines = lines := by
  refine List.takeWhile_eq_self_iff.mpr fun line hline => ?_
  rw [eq_false_of_ne_true (List.any_eq_false.mp h line hline)]
  rfl

/-- All narrow lines are reached. -/
theorem reached_of_narrow (h : Narrow maxDepth lines) : reached maxDepth lines = lines :=
  reached_of_any_eq_false (any_breaksOff_of_narrow h)

theorem unreached_of_narrow (h : Narrow maxDepth lines) : unreached maxDepth lines = [] := by
  refine List.dropWhile_eq_nil_iff.mpr fun line hline => ?_
  rw [h.breaksOff hline]
  rfl

/-- The tags of all lines are those that a run comes to read and those that it does not. -/
theorem accepted_eq_append (maxDepth : Nat) (lines : List String) :
    accepted maxDepth lines =
      accepted maxDepth (reached maxDepth lines) ++
        accepted maxDepth (unreached maxDepth lines) := by
  unfold accepted reached unreached
  rw [← List.filterMap_append, List.takeWhile_append_dropWhile]

end CommandLine

end Annotations
