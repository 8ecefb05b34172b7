import Annotations.Diagnostic
import Annotations.Proofs.Number.ReadBack
import Annotations.Proofs.Parser.Cursor
import Annotations.Proofs.Tag.Pointing
import Annotations.Proofs.Text.Places

/-!
# The Caret Stands below the Character

A diagnostic ends in two lines: the line of the source that a fault is about, behind its
number, and a caret below it. The line is shown without the spaces that it starts with
and without white space at its end, so the column of the caret is not that of the
source. It is still below the character at the offset of the fault, or behind all that
is shown if the offset is in the white space that was left out.

Two things have to be right for this. The bars that divide numbers from lines stand
below one another, whatever the number of digits. And the spaces left out are in front
of the fault, since otherwise there would be fewer characters before it than were left
out. This is a fact about faults: each one stands where a token starts, where the source
ends, or at the end of a hash sign, and never inside of the spaces that a line starts
with.

## Main definitions

* `Text.Firm`: A place that is not in front of white space, or that is behind a hash sign.
* `Diagnostic.Marks`: Two lines show a place and mark it.

## Theorems

* `Parser.Raises.position_cases`: A fault of the parser stands at a token.
* `Tag.exists_firm_of_ofText_error`: Every fault stands at a firm place.
* `Diagnostic.indent_le_of_firm`: The spaces left out are in front of a firm place.
* `Diagnostic.getElem?_shown`, `Diagnostic.length_shown_le`: What of the line is shown at a
  place.
* `Diagnostic.marks_of_firm`: A firm place is marked.
* `Fault.render_caret`: The caret stands below the character.
-/

namespace Annotations

open Grammar Source Text

/-- A place in a text that is not in front of white space, or that is behind a hash
    sign. -/
def Text.Firm (before after : List Char) : Prop :=
  (∀ c ∈ after.head?, isBlank c = false) ∨ '#' ∈ before.getLast?

namespace Parser

/-- A fault of the parser stands where a token starts, or where a hash sign ends. -/
theorem Raises.position_cases {used : List Token} {s : State} {fault : Fault}
    (h : Raises used s fault) :
    ∃ t ∈ used ++ [s.current], fault.position = t.span.start ∨
      t.kind = .hash ∧ fault.position = t.span.stop := by
  have hcurrent : s.current ∈ used ++ [s.current] := by simp
  cases h with
  | unexpected _ | emptyAttributes _ | nested _ | number _ | tooDeep _ =>
      exact ⟨s.current, hcurrent, Or.inl rfl⟩
  | @detached before hash opening hused hhash _ _ =>
      exact ⟨hash, by simp [hused], Or.inr ⟨hhash, rfl⟩⟩
  | @mixed before us opening closing elements element _ _ _ hused _ helements _ _ helement =>
      -- The token of the element is one of those between the brackets.
      rcases helements.exists_of_mem (List.mem_of_getElem? helement) with ⟨ts, hts, hsub⟩
      have hbetween : element.2 ∈ us := hsub (by simp [hts.1])
      exact ⟨element.2, by simp [hused, hbetween], Or.inl rfl⟩

end Parser

namespace Tag

/-- Whatever is wrong with tokens is reported where one of them starts, or where a hash
    sign ends. -/
theorem exists_position_of_ofTokens_error {tokens : List Token} {label : String} {maxDepth : Nat}
    {fault : Fault} (h : Tag.ofTokens tokens label maxDepth = .error fault) :
    ∃ t ∈ Token.completed label tokens, fault.position = t.span.start ∨
      t.kind = .hash ∧ fault.position = t.span.stop := by
  rcases Tag.exists_of_ofTokens_eq_error h with ⟨stopped, hstopped⟩
  rcases stopped.exists_remaining_eq with ⟨after, hafter⟩
  -- The tokens passed and the current one are among those of the input.
  have hsub : ∀ used, (Parser.State.ofTokens tokens label maxDepth).Passed used stopped →
      ∀ t ∈ used ++ [stopped.current], t ∈ Token.completed label tokens := by
    intro used hpassed t ht
    rw [← Parser.State.remaining_ofTokens tokens label maxDepth, hpassed.remaining_eq, hafter]
    rcases List.mem_append.mp ht with ht | ht
    · exact List.mem_append_left _ ht
    · exact List.mem_append_right _ (List.mem_singleton.mp ht ▸ List.mem_cons_self)
  rcases Parser.failed_wholeTag hstopped with
    ⟨used, hpassed, hreports⟩ | ⟨used, hpassed, -, -, rfl⟩
  · rcases hreports.raises.position_cases with ⟨t, ht, hposition⟩
    exact ⟨t, hsub used hpassed t ht, hposition⟩
  · exact ⟨stopped.current, hsub used hpassed _ (by simp), Or.inl rfl⟩

/-- A token of a source starts at a firm place, and so does what is behind a hash
    sign. -/
theorem exists_firm_of_mem {source : String} {tokens : List Token}
    (hscan : Token.scan defaultLabel source = .ok tokens)
    (hsize : byteLength source.toList < UInt32.size) {t : Token} (ht : t ∈ tokens)
    {position : Position}
    (hposition : position = t.span.start ∨ t.kind = .hash ∧ position = t.span.stop) :
    ∃ before after, source.toList = before ++ after ∧
      byteLength before = position.offset.toNat ∧ Firm before after := by
  have htokens := Token.isTokenisation_of_scan hscan hsize
  rcases hposition with rfl | ⟨hhash, rfl⟩
  · rcases htokens.exists_at hsize ht with ⟨before, after, hsource, hbytes, hend, hspelled⟩
    refine ⟨before, after, hsource, hbytes, Or.inl ?_⟩
    by_cases hkind : t.kind = .endOfInput
    · rw [hend hkind]
      simp
    · rcases hspelled hkind with ⟨hwrites, rest, rfl⟩
      intro c hc
      rcases hpiece : t.spelling with _ | ⟨d, tail⟩
      · exact absurd hpiece hwrites.piece_ne_nil
      · rw [hpiece] at hwrites hc
        cases hc
        exact hwrites.not_isBlank
  · rcases (htokens.occurs t ht (by simp [hhash])).bytes (by omega) with
      ⟨before, piece, after, hsource, -, hstop, -, hwrites, -⟩
    have hpiece : piece = ['#'] := by
      rw [hhash] at hwrites
      exact hwrites.1.trans hwrites.2
    rw [hpiece, Nat.zero_add] at hstop
    rw [hpiece] at hsource
    exact ⟨before ++ ['#'], after, hsource, hstop.symm, Or.inr (by simp)⟩

/-- Every fault stands at a firm place of the source. -/
theorem exists_firm_of_ofText_error {maxDepth : Nat} {source : String} {fault : Fault}
    (hsize : byteLength source.toList < UInt32.size)
    (h : Tag.ofText maxDepth source = .error fault) :
    ∃ before after, source.toList = before ++ after ∧
      byteLength before = fault.position.offset.toNat ∧ Firm before after := by
  cases hscan : Token.scan defaultLabel source with
  | error other =>
      rw [Tag.ofText, Tag.ofSource, hscan] at h
      cases h
      rcases Token.scanFrom_eq_error hscan with ⟨before, c, rest, hsource, hposition, hread⟩
      rw [Nat.zero_add] at hposition
      rw [hsource, byteLength_append] at hsize
      refine ⟨before, c :: rest, hsource, ?_, Or.inl ?_⟩
      · rw [hposition, Token.toNat_ofOffset defaultLabel (by omega)]
      -- White space is never refused.
      · intro d hd
        cases hd
        rw [Bool.eq_false_iff]
        intro hblank
        rw [Lexeme.read_of_isBlank hblank] at hread
        cases hread
  | ok tokens =>
      rw [ofText_of_scan hscan] at h
      rcases exists_position_of_ofTokens_error h with ⟨t, ht, hposition⟩
      have hcompleted : Token.completed defaultLabel tokens = tokens := by
        rcases (Token.isTokenisation_of_scan hscan hsize).ends with ⟨body, rfl, -⟩
        simp [Token.completed]
      rw [hcompleted] at ht
      exact exists_firm_of_mem hscan hsize ht hposition

end Tag

namespace Diagnostic

variable {before after : List Char}

/-- The spaces that a line starts with are in front of a firm place. -/
theorem indent_le_of_firm (h : Firm before after) :
    indent (lineBefore before ++ lineAfter after) ≤ (lineBefore before).length := by
  unfold indent
  rw [List.takeWhile_append]
  split
  · next hspaces =>
      -- The line is all spaces up to the place, and goes on with something else there.
      have hall : (lineBefore before).takeWhile (· = ' ') = lineBefore before :=
        (List.takeWhile_prefix _).eq_of_length hspaces
      have hstop : (lineAfter after).takeWhile (· = ' ') = [] := by
        rcases h with hhead | hhash
        · rw [← head?_lineAfter] at hhead
          generalize lineAfter after = line at hhead ⊢
          rcases line with _ | ⟨c, line⟩
          · rfl
          · have hc : c ≠ ' ' := by
              intro hc
              have hblank := hhead c rfl
              rw [hc] at hblank
              exact absurd hblank (by decide)
            simp [hc]
        · have hmem := mem_lineBefore hhash (by decide)
          rw [← hall] at hmem
          have hspace := List.mem_takeWhile_imp hmem
          exact absurd hspace (by decide)
      rw [hstop, List.append_nil]
  · exact (List.takeWhile_sublist _).length_le

theorem drop_indent (line : List Char) : line.drop (indent line) = line.dropWhile (· = ' ') := by
  have hsplit : line.takeWhile (· = ' ') ++ line.dropWhile (· = ' ') = line :=
    List.takeWhile_append_dropWhile
  calc line.drop (indent line)
      = (line.takeWhile (· = ' ') ++ line.dropWhile (· = ' ')).drop (indent line) := by rw [hsplit]
    _ = line.dropWhile (· = ' ') := List.drop_left

/-- Of a line that is parted behind its spaces, what is shown. -/
theorem shown_append {x y : List Char} (h : indent (x ++ y) ≤ x.length) :
    shown (x ++ y) = trimEnd (x.drop (indent (x ++ y)) ++ y) := by
  rw [shown, ← drop_indent, List.drop_append_of_le_length h]

/-- A place in front of anything but white space is shown. -/
theorem getElem?_shown {x y : List Char} (h : indent (x ++ y) ≤ x.length)
    (hy : ∃ d ∈ y, isBlank d = false) :
    (shown (x ++ y))[x.length - indent (x ++ y)]? = y.head? := by
  have hne : trimEnd y ≠ [] := by
    intro hnil
    rcases hy with ⟨d, hd, hblank⟩
    rw [trimEnd_eq_nil_iff.mp hnil d hd] at hblank
    cases hblank
  have hlength : (x.drop (indent (x ++ y))).length = x.length - indent (x ++ y) :=
    List.length_drop
  rw [shown_append h, trimEnd_append _ hne, ← hlength, List.getElem?_append_right (Nat.le_refl _),
    Nat.sub_self, ← List.head?_eq_getElem?, head?_trimEnd hne]

/-- A place in front of nothing but white space is behind all that is shown. -/
theorem length_shown_le {x y : List Char} (h : indent (x ++ y) ≤ x.length)
    (hy : ∀ d ∈ y, isBlank d = true) : (shown (x ++ y)).length ≤ x.length - indent (x ++ y) := by
  rw [shown_append h, trimEnd_append_of_blank _ hy, ← List.length_drop]
  exact (trimEnd_sublist _).length_le

/-- What is shown is on one line. -/
theorem notMem_shown (h : indent (lineBefore before ++ lineAfter after) ≤ (lineBefore before).length) :
    '\n' ∉ shown (lineBefore before ++ lineAfter after) := by
  rcases exists_lineAfter_eq after with ⟨cs, ending, hline, hcs, hending⟩
  have hblank : ∀ c ∈ ending, isBlank c = true := by
    intro c hc
    rw [hending c hc]
    decide
  rw [shown_append h, hline, ← List.append_assoc, trimEnd_append_of_blank _ hblank]
  intro hmem
  rcases List.mem_append.mp ((trimEnd_sublist _).subset hmem) with hmem | hmem
  · exact notMem_lineBefore before (List.mem_of_mem_drop hmem)
  · exact hcs hmem

/-- How many digits the number of a place has. -/
def digits (place : Location) : Nat :=
  (Nat.toDigits 10 place.number).length

/-- The bars of the two lines stand below one another. -/
theorem getElem?_bars (place : Location) :
    (excerpt place)[digits place + 1]? = some '|' ∧
      (pointer place)[digits place + 1]? = some '|' := by
  unfold excerpt pointer bar digits
  constructor
  · simp
  · simp

/-- The caret is as far behind the bar as the fault is behind the spaces left out. -/
theorem getElem?_caret (place : Location) :
    (pointer place)[digits place + 3 + (place.column - indent place.text)]? = some '^' := by
  have hlength : (bar place.number ++
      ' ' :: List.replicate (place.column - indent place.text) '-').length =
      digits place + 3 + (place.column - indent place.text) := by
    simp only [bar, digits, List.length_append, List.length_replicate, List.length_cons,
      List.length_nil]
    omega
  rw [pointer, ← hlength, List.getElem?_concat_length]

/-- There is one bar and one caret. -/
theorem count_pointer (place : Location) :
    (pointer place).count '|' = 1 ∧ (pointer place).count '^' = 1 := by
  unfold pointer bar
  simp [List.count_append, List.count_replicate]

theorem length_number (place : Location) :
    (Nat.toDigits 10 place.number ++ [' ', '|', ' ']).length = digits place + 3 := by
  rw [List.length_append]
  rfl

/-- What is shown of the line comes behind its number and the bar. -/
theorem getElem?_excerpt (place : Location) (n : Nat) :
    (excerpt place)[digits place + 3 + n]? = (shown place.text)[n]? := by
  rw [excerpt, ← length_number, List.getElem?_append_right (Nat.le_add_right _ n),
    Nat.add_sub_cancel_left]

theorem length_excerpt (place : Location) :
    (excerpt place).length = digits place + 3 + (shown place.text).length := by
  rw [excerpt, List.length_append, length_number]

theorem notMem_pointer (place : Location) : '\n' ∉ pointer place := by
  unfold pointer bar
  simp

theorem notMem_excerpt {place : Location} (h : '\n' ∉ shown place.text) : '\n' ∉ excerpt place := by
  unfold excerpt
  have hdigits : '\n' ∉ Nat.toDigits 10 place.number := by
    intro hmem
    exact absurd ((Number.isDigits_toDigits place.number).2 _ hmem) (by decide)
  simp [h, hdigits]

/-- Two lines show a place of a text that goes on with `after`, and mark it. -/
structure Marks (place : Location) (after excerpt pointer : List Char) : Prop where
  /-- The spaces that the line starts with are in front of the place. -/
  indent_le : indent place.text ≤ place.column
  /-- The line is shown behind its number, without these spaces and without white space
      at its end. -/
  excerpt_eq : excerpt =
    Nat.toDigits 10 place.number ++ [' ', '|', ' '] ++ trimEnd (place.text.drop (indent place.text))
  /-- The bars of the two lines stand in one column. -/
  bars : excerpt[digits place + 1]? = some '|' ∧ pointer[digits place + 1]? = some '|'
  /-- The caret is as far behind the start of the line as the place is behind the spaces. -/
  caret : pointer[digits place + 3 + (place.column - indent place.text)]? = some '^'
  /-- There is one bar and one caret. -/
  single : pointer.count '|' = 1 ∧ pointer.count '^' = 1
  /-- The character at the place is in the column of the caret, unless nothing but white
      space follows in the line. -/
  below : (∃ d ∈ lineAfter after, isBlank d = false) →
    excerpt[digits place + 3 + (place.column - indent place.text)]? = after.head?
  /-- In that case the caret is behind all that is shown. -/
  behind : (∀ d ∈ lineAfter after, isBlank d = true) →
    excerpt.length ≤ digits place + 3 + (place.column - indent place.text)
  /-- Neither of the two goes on in another line. -/
  lines : '\n' ∉ excerpt ∧ '\n' ∉ pointer

/-- A firm place is marked. -/
theorem marks_of_firm (h : Firm before after) {place : Location}
    (htext : place.text = lineBefore before ++ lineAfter after)
    (hcolumn : place.column = (lineBefore before).length) :
    Marks place after (excerpt place) (pointer place) := by
  have hindent := indent_le_of_firm h
  constructor
  case indent_le =>
    rw [htext, hcolumn]
    exact hindent
  case excerpt_eq => rw [drop_indent, excerpt, shown]
  case bars => exact getElem?_bars place
  case caret => exact getElem?_caret place
  case single => exact count_pointer place
  case below =>
    intro hafter
    rw [getElem?_excerpt, htext, hcolumn, getElem?_shown hindent hafter, head?_lineAfter]
  case behind =>
    intro hafter
    have hshown := length_shown_le hindent hafter
    rw [length_excerpt, htext, hcolumn]
    omega
  case lines =>
    refine ⟨notMem_excerpt ?_, notMem_pointer place⟩
    rw [htext]
    exact notMem_shown hindent

end Diagnostic

/-- A diagnostic ends in the line of the source and the caret below it. -/
theorem Fault.exists_render_eq (fault : Fault) (source : String) :
    ∃ heading, (fault.render source).toList =
      heading ++ '\n' :: Diagnostic.excerpt (locate source.toList fault.position.offset.toNat) ++
        '\n' :: Diagnostic.pointer (locate source.toList fault.position.offset.toNat) := by
  unfold Fault.render
  refine ⟨Diagnostic.heading fault.cause ++ '\n' :: "-> ".toList ++ fault.position.label.toList ++
    '\n' :: Diagnostic.bar (locate source.toList fault.position.offset.toNat).number, ?_⟩
  simp [List.intercalate]

/-- The caret stands below the character. A diagnostic ends in two lines, of which the
    first shows the line of the source that holds the fault, and the second has a caret in
    the column of the character at the fault, or behind what is shown of the line. The
    source is parted at the fault into what is before and what is after: the number of
    the line is by one more than the line feeds before, and the column is how many
    characters are before since the last of them. The diagnostic can be had if the column
    is below the limit of padding. -/
theorem Fault.render_caret (maxDepth : Nat) (source : String) {fault : Fault}
    (hsize : byteLength source.toList < UInt32.size)
    (h : Tag.ofText maxDepth source = .error fault) :
    ∃ before after heading excerpt pointer : List Char,
      source.toList = before ++ after ∧ byteLength before = fault.position.offset.toNat ∧
      ((lineBefore before).length < Diagnostic.maxWidth →
        fault.render? source = some (fault.render source)) ∧
      (fault.render source).toList = heading ++ '\n' :: excerpt ++ '\n' :: pointer ∧
      Diagnostic.Marks ⟨before.count '\n' + 1, lineBefore before ++ lineAfter after,
        (lineBefore before).length⟩ after excerpt pointer := by
  rcases Tag.exists_firm_of_ofText_error hsize h with ⟨before, after, hsource, hbytes, hfirm⟩
  have hplace := locate_append before after
  rw [← hsource, hbytes] at hplace
  rcases fault.exists_render_eq source with ⟨heading, hrender⟩
  rw [hplace] at hrender
  refine ⟨before, after, heading, _, _, hsource, hbytes, fun hcolumn => ?_, hrender,
    Diagnostic.marks_of_firm hfirm rfl rfl⟩
  refine Fault.render?_of_fits (Fault.fits_of_column_lt ?_)
  rw [hplace]
  exact hcolumn

/-- A comma in place of a value, on a second line that starts with spaces and has a tab
    in it, behind a character of two bytes. -/
theorem Fault.render_caret_tab :
    byteLength "#[é(\n   x=\t,)]".toList < UInt32.size ∧
      ∃ fault, Tag.ofText 4 "#[é(\n   x=\t,)]" = .error fault ∧
        fault.cause = .unexpectedToken "," "expected a value" ∧ fault.position.offset = 12 ∧
        ∃ before after heading excerpt pointer : List Char,
          "#[é(\n   x=\t,)]".toList = before ++ after ∧ byteLength before = 12 ∧
          ((lineBefore before).length < Diagnostic.maxWidth →
            fault.render? "#[é(\n   x=\t,)]" = some (fault.render "#[é(\n   x=\t,)]")) ∧
          (fault.render "#[é(\n   x=\t,)]").toList =
            heading ++ '\n' :: excerpt ++ '\n' :: pointer ∧
          Diagnostic.Marks ⟨before.count '\n' + 1, lineBefore before ++ lineAfter after,
            (lineBefore before).length⟩ after excerpt pointer := by
  set source := "#[é(\n   x=\t,)]"
  set tokens : List Token :=
    [⟨.hash, "#", .ofLength defaultLabel 0 1⟩, ⟨.openBracket, "[", .ofLength defaultLabel 1 1⟩,
      ⟨.identifier, "é", .ofLength defaultLabel 2 2⟩, ⟨.openParen, "(", .ofLength defaultLabel 4 1⟩,
      ⟨.identifier, "x", .ofLength defaultLabel 9 1⟩,
      ⟨.assignment, "=", .ofLength defaultLabel 10 1⟩, ⟨.comma, ",", .ofLength defaultLabel 12 1⟩,
      ⟨.closeParen, ")", .ofLength defaultLabel 13 1⟩,
      ⟨.closeBracket, "]", .ofLength defaultLabel 14 1⟩, .endOfInput (.ofOffset defaultLabel 15)]
  have hsize : byteLength source.toList < UInt32.size := by decide
  have hscan : Token.scan defaultLabel source = .ok tokens :=
    Token.scan_of_toOption (by decide +kernel)
  set fault : Fault := ⟨.unexpectedToken "," "expected a value", .ofOffset defaultLabel 12⟩
  have hrefused : Tag.ofText 4 source = .error fault := by
    rw [Tag.ofText_of_scan hscan]
    rfl
  exact ⟨hsize, fault, hrefused, rfl, rfl, Fault.render_caret 4 source hsize hrefused⟩

end Annotations
