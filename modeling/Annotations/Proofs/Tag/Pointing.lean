import Annotations.Proofs.Parser.FailingRules
import Annotations.Proofs.Tag.Spacing

/-!
# Faults Point at What They Are About

The position of a fault is a place in the source at which a reader finds what the
fault talks about. If the fault names a token, the source goes on with that token
from there; if it says that the input ends, the source does; and if it is about
white space behind a hash sign, that is what is on either side.

A fault may come from the scanner or from the parser. The scanner reports the
offset it has come to. The parser knows nothing of the source: it reports where a
token starts or stops, and its tokens have been found in the source. What is known
about a failing parser is that its fault is about a token that it stands at or has
passed, and so about one of the tokens of the source, which stands there spelled
out.

## Main definitions

* `Token.spelling`: A token as it is written in a source.
* `Fault.ShowsToken`, `Fault.StartsElement`: A token, or an element of a list, starts
  at a position.
* `Fault.PointsAt`, `Fault.Points`: What is on either side of the position of a fault.

## Theorems

* `Token.IsTokenisation.exists_at`: A token of a source is spelled out where it starts.
* `Fault.points_of_scan_error`: Faults of the scanner.
* `Fault.points_of_token`, `Fault.points_of_detached`: Faults about a token, and about
  white space behind a hash sign.
* `Fault.points_of_raises`: Faults of the parser.
* `Tag.ofText_error_pointsAt`: Every fault points at what it is about.
-/

namespace Annotations

open Grammar Source Text

/-- A token as it is written in a source: a string stands between quotes. -/
def Token.spelling (t : Token) : List Char :=
  if t.kind = .string then '"' :: t.text.toList ++ ['"'] else t.text.toList

namespace Fault

/-- A token of the source with the text starts at the position, where the source goes
    on as it is spelled. -/
def ShowsToken (source : String) (position : Position) (text : String) (after : List Char) :
    Prop :=
  ∃ tokens t, Token.scan defaultLabel source = .ok tokens ∧ t ∈ tokens ∧
    t.span.start = position ∧ t.text = text ∧ t.spelling <+: after

/-- The source has a list whose elements do not fit together at the index, and the
    element there starts at the position. -/
def StartsElement (source : String) (position : Position) (index : Nat)
    (expected received : String) (after : List Char) : Prop :=
  ∃ before opening us closing more elements element e r,
    Token.scan defaultLabel source = .ok (before ++ (opening :: us ++ closing :: more)) ∧
    opening.kind = .openBracket ∧ closing.kind = .closeBracket ∧
    Separated Parser.IsElement us elements ∧
    Literal.fold (elements.map Prod.fst) = .error (.mixed index e r) ∧
    e.name = expected ∧ r.name = received ∧ elements[index]? = some element ∧
    element.2.span.start = position ∧ element.2.spelling <+: after

/-- What is in the source in front of the position of a fault and from there on. -/
def PointsAt (source : String) (fault : Fault) (before after : List Char) : Prop :=
  match fault.cause with
  | .unrecognised token => token.toList <+: after
  | .unterminatedString => ∃ rest, after = '"' :: rest ∧ '"' ∉ rest
  | .unexpectedToken token _ | .trailingInput token | .nestedCollection token
  | .invalidNumber token => ShowsToken source fault.position token after
  | .unexpectedEnd _ => after = []
  | .nestingTooDeep _ => ['{'] <+: after
  | .emptyAttributes => [')'] <+: after
  | .detachedHash => ['#'] <:+ before ∧ ∃ c rest, after = c :: rest ∧ isBlank c = true
  | .mixedList index expected received =>
    StartsElement source fault.position index expected received after

/-- The position of a fault is in the source, between two of its characters or at an
    end, and points at what the fault is about. -/
def Points (source : String) (fault : Fault) : Prop :=
  fault.position.label = defaultLabel ∧ ∃ before after, source.toList = before ++ after ∧
    byteLength before = fault.position.offset.toNat ∧ PointsAt source fault before after

end Fault

namespace Token

/-- What writes a token in a source is its spelling. -/
theorem Kind.Writes.eq_spelling {t : Token} {piece : List Char}
    (h : t.kind.Writes t.text.toList piece) : piece = t.spelling := by
  unfold spelling
  rcases t with ⟨kind, text, span⟩
  cases kind with
  | endOfInput => exact absurd h id
  | string => exact h.1
  | integer | float | identifier | hash | openBracket | closeBracket | openCurly | closeCurly
  | openParen | closeParen | assignment | comma | trueWord | falseWord => exact h.1

/-- A token of a source is spelled out where it starts, and the one at the end starts
    where the source ends. -/
theorem IsTokenisation.exists_at {label : String} {cs : List Char} {tokens : List Token}
    (h : IsTokenisation label 0 cs tokens) (hsize : byteLength cs < UInt32.size) {t : Token}
    (ht : t ∈ tokens) :
    ∃ before after, cs = before ++ after ∧ byteLength before = t.startByte ∧
      (t.kind = .endOfInput → after = []) ∧
      (t.kind ≠ .endOfInput → t.kind.Writes t.text.toList t.spelling ∧ t.spelling <+: after) := by
  by_cases hkind : t.kind = .endOfInput
  · rcases h.ends with ⟨body, rfl, hbody⟩
    rcases List.mem_append.mp ht with hmem | hlast
    · exact absurd hkind (hbody t hmem)
    · refine ⟨cs, [], (List.append_nil cs).symm, ?_, fun _ => rfl, fun hne => absurd hkind hne⟩
      rw [List.mem_singleton.mp hlast, startByte, toNat_ofOffset label (by omega), Nat.zero_add]
  · rcases (h.occurs t ht hkind).bytes (by omega) with
      ⟨before, piece, after, hcs, hstart, -, -, hwrites, -⟩
    have hpiece := hwrites.eq_spelling
    refine ⟨before, piece ++ after, by rw [hcs, List.append_assoc], by omega,
      fun heq => absurd heq hkind, fun _ => ⟨by rw [← hpiece]; exact hwrites, ?_⟩⟩
    rw [← hpiece]
    exact List.prefix_append piece after

end Token

namespace Fault

variable {source : String} {tokens : List Token} {fault : Fault}

/-- The scanner reports the character that is refused. -/
theorem points_of_scan_error (hsize : byteLength source.toList < UInt32.size)
    (h : Token.scan defaultLabel source = .error fault) : Points source fault := by
  rcases Token.scanFrom_eq_error h with ⟨before, c, rest, hsource, hposition, hread⟩
  rw [Nat.zero_add] at hposition
  have hbytes : byteLength before < UInt32.size := by
    rw [hsource, byteLength_append] at hsize
    omega
  refine ⟨by rw [hposition]; rfl, before, c :: rest, hsource, ?_, ?_⟩
  · rw [hposition, Token.toNat_ofOffset defaultLabel hbytes]
  · unfold PointsAt
    rcases Lexeme.read_eq_error hread with ⟨hcause, rfl, hquote⟩ | hcause
    · rw [hcause]
      exact ⟨rest, rfl, hquote⟩
    · rw [hcause]
      simp

/-- A fault that is reported where a token of the source starts. -/
theorem points_of_start (hscan : Token.scan defaultLabel source = .ok tokens)
    (hsize : byteLength source.toList < UInt32.size) {t : Token} (ht : t ∈ tokens)
    (hposition : fault.position = t.span.start)
    (hpoints : ∀ before after, (t.kind = .endOfInput → after = []) →
      (t.kind ≠ .endOfInput → t.kind.Writes t.text.toList t.spelling ∧ t.spelling <+: after) →
      PointsAt source fault before after) : Points source fault := by
  have htokens := Token.isTokenisation_of_scan hscan hsize
  rcases htokens.exists_at hsize ht with ⟨before, after, hsource, hbytes, hend, hspelled⟩
  refine ⟨by rw [hposition, (htokens.label_eq ht).1], before, after, hsource, ?_,
    hpoints before after hend hspelled⟩
  rw [hposition]
  exact hbytes

/-- A fault that names a token of the source and is reported where it starts. -/
theorem points_of_token (hscan : Token.scan defaultLabel source = .ok tokens)
    (hsize : byteLength source.toList < UInt32.size) {t : Token} (ht : t ∈ tokens)
    (hkind : t.kind ≠ .endOfInput) (hposition : fault.position = t.span.start)
    (hcause : ∀ before after, ShowsToken source t.span.start t.text after →
      PointsAt source fault before after) : Points source fault := by
  refine points_of_start hscan hsize ht hposition (fun before after _ hspelled => ?_)
  exact hcause before after ⟨tokens, t, hscan, ht, rfl, rfl, (hspelled hkind).2⟩

/-- Behind a hash sign that the next token does not follow at once there is white
    space. -/
theorem points_of_detached (hscan : Token.scan defaultLabel source = .ok tokens)
    (hsize : byteLength source.toList < UInt32.size) {others more : List Token}
    {hash opening : Token} (hsplit : tokens = others ++ hash :: opening :: more)
    (hhash : hash.kind = .hash) (hopening : opening.kind = .openBracket)
    (hapart : opening.span.start ≠ hash.span.stop) :
    Points source ⟨.detachedHash, hash.span.stop⟩ := by
  have h := Token.isTokenisation_of_scan hscan hsize
  have hmem : hash ∈ tokens := by simp [hsplit]
  have hmem' : opening ∈ tokens := by simp [hsplit]
  rcases (h.occurs hash hmem (by simp [hhash])).bytes (by omega) with
    ⟨before, piece, after, hsource, hstart, hstop, -, hwrites, -⟩
  have hpiece : piece = ['#'] := by
    rw [hhash] at hwrites
    exact hwrites.1.trans hwrites.2
  rw [hpiece, Nat.zero_add] at hstop
  rw [hpiece] at hsource
  -- The bracket starts further back, so the source goes on.
  have hordered := h.ordered
  rw [hsplit, List.pairwise_append, List.pairwise_cons, List.pairwise_cons] at hordered
  rcases hordered with ⟨-, ⟨hhash_le, hopening_le, -⟩, hothers⟩
  have hlabel : opening.span.start.label = hash.span.stop.label := by
    rw [(h.label_eq hmem').1, (h.label_eq hmem).2]
  rw [ne_eq, Token.start_eq_stop_iff hlabel] at hapart
  have hgap := hhash_le opening List.mem_cons_self
  have hbytes := h.bytes_le hsize hmem'
  rcases after with _ | ⟨c, rest⟩
  · rw [hsource, List.append_nil] at hbytes
    omega
  refine ⟨(h.label_eq hmem).2, before ++ ['#'], c :: rest, hsource, hstop.symm, ?_, c, rest, rfl, ?_⟩
  · exact List.suffix_append before ['#']
  · refine h.blankBetween (byteLength (before ++ ['#'])) c ?_ ?_
    · rw [hsource]
      exact ByteOf.of_append (before ++ ['#']) c rest
    -- No token covers what is between the two: the others are before or behind them.
    · intro t ht
      rw [Nat.zero_add, ← hstop]
      rw [hsplit] at ht
      rcases List.mem_append.mp ht with ht | ht
      · have := hothers t ht hash List.mem_cons_self
        have := h.bytes_le hsize hmem
        omega
      · rcases List.mem_cons.mp ht with rfl | ht
        · omega
        · rcases List.mem_cons.mp ht with rfl | ht
          · omega
          · have := hopening_le t ht
            omega

/-- Whatever the parser reports is about tokens of the source. -/
theorem points_of_raises (hscan : Token.scan defaultLabel source = .ok tokens)
    (hsize : byteLength source.toList < UInt32.size) {used : List Token} {s : Parser.State}
    (hsplit : tokens = used ++ (s.rest ++ [s.stop])) (h : Parser.Raises used s fault) :
    Points source fault := by
  have hcurrent : s.current ∈ tokens := by
    rcases s.exists_eq_current_cons with ⟨after, hafter⟩
    rw [hsplit, hafter]
    simp
  cases h with
  | unexpected _ =>
      -- At the end of the input nothing is spelled out, and the fault names no token.
      by_cases hkind : s.kind = .endOfInput
      · refine points_of_start hscan hsize hcurrent rfl (fun before after hend _ => ?_)
        unfold PointsAt Parser.State.unexpected
        rw [if_pos hkind]
        exact hend hkind
      · refine points_of_token hscan hsize hcurrent hkind rfl (fun before after hshown => ?_)
        unfold PointsAt Parser.State.unexpected
        rw [if_neg hkind]
        exact hshown
  | nested hkind =>
      have hend : s.kind ≠ .endOfInput := by rcases hkind with hkind | hkind <;> simp [hkind]
      exact points_of_token hscan hsize hcurrent hend rfl (fun _ _ hshown => hshown)
  | number hkind =>
      have hend : s.kind ≠ .endOfInput := by rcases hkind with hkind | hkind <;> simp [hkind]
      exact points_of_token hscan hsize hcurrent hend rfl (fun _ _ hshown => hshown)
  | emptyAttributes hkind =>
      refine points_of_start hscan hsize hcurrent rfl (fun before after _ hspelled => ?_)
      have hclose : s.current.kind = .closeParen := hkind
      rcases hspelled (by simp [hclose]) with ⟨hwrites, hstarts⟩
      rw [hclose] at hwrites
      rw [hwrites.1, hwrites.2] at hstarts
      exact hstarts
  | tooDeep hkind =>
      refine points_of_start hscan hsize hcurrent rfl (fun before after _ hspelled => ?_)
      have hopen : s.current.kind = .openCurly := hkind
      rcases hspelled (by simp [hopen]) with ⟨hwrites, hstarts⟩
      rw [hopen] at hwrites
      rw [hwrites.1, hwrites.2] at hstarts
      exact hstarts
  | @detached others hash opening hused hhash hopening hapart =>
      have hpair : tokens = others ++ hash :: opening :: (s.rest ++ [s.stop]) := by
        simp [hsplit, hused]
      exact points_of_detached hscan hsize hpair hhash hopening hapart
  | @mixed others us opening closing elements element index expected received hused hopening
      helements hclosing hfold helement =>
      -- The token of the element is one of those between the brackets.
      rcases helements.exists_of_mem (List.mem_of_getElem? helement) with ⟨ts, hts, hsub⟩
      have hbetween : element.2 ∈ us := hsub (by simp [hts.1])
      have hlist : tokens = others ++ (opening :: us ++ closing :: (s.rest ++ [s.stop])) := by
        simp [hsplit, hused]
      have hmem : element.2 ∈ tokens := by simp [hlist, hbetween]
      have hkind : element.2.kind ≠ .endOfInput := by
        rcases hts with ⟨rfl, hliteral⟩
        rcases Parser.derivesLiteral_singleton hliteral with ⟨t, ht, hkind⟩
        cases ht
        exact hkind
      refine points_of_start hscan hsize hmem rfl (fun before after _ hspelled => ?_)
      exact ⟨others, opening, us, closing, _, elements, element, expected, received,
        by rw [hscan, hlist], hopening, hclosing, helements, hfold, rfl, rfl, helement, rfl,
        (hspelled hkind).2⟩

end Fault

/-- Every fault points at what it is about. Its position is in the source, between two
    characters or at an end. A token that it names is spelled out there, and so are the
    quote of a string without end, the brace of a map too deep and the parenthesis that
    closes an empty list. Where the input is said to end, the source does. A hash sign
    and white space are on either side if they are at fault, and of a list whose elements
    do not fit together the element starts there whose index is given. -/
theorem Tag.ofText_error_pointsAt (maxDepth : Nat) (source : String) {fault : Fault}
    (hsize : byteLength source.toList < UInt32.size)
    (h : Tag.ofText maxDepth source = .error fault) :
    fault.position.label = "<input>" ∧
      fault.position.offset.toNat ≤ byteLength source.toList ∧
      ∃ before after, source.toList = before ++ after ∧
        byteLength before = fault.position.offset.toNat ∧
        Fault.PointsAt source fault before after := by
  have hpoints : fault.Points source := by
    cases hscan : Token.scan defaultLabel source with
    | error other =>
        have hsame : Tag.ofText maxDepth source = .error other := by
          rw [Tag.ofText, Tag.ofSource, hscan]
          rfl
        rw [hsame] at h
        cases h
        exact Fault.points_of_scan_error hsize hscan
    | ok tokens =>
        rw [ofText_of_scan hscan] at h
        rcases Tag.exists_of_ofTokens_eq_error h with ⟨stopped, hstopped⟩
        -- What the parser has passed and what is left are the tokens of the source.
        have hsplit : ∀ used,
            (Parser.State.ofTokens tokens defaultLabel maxDepth).Passed used stopped →
            tokens = used ++ (stopped.rest ++ [stopped.stop]) := by
          intro used hpassed
          rcases (Token.isTokenisation_of_scan hscan hsize).ends with ⟨body, rfl, -⟩
          rw [Parser.State.ofTokens_concat body rfl] at hpassed
          rw [hpassed.stop_eq, ← List.append_assoc, ← hpassed.rest_eq]
        rcases Parser.failed_wholeTag hstopped with
          ⟨used, hpassed, hreports⟩ | ⟨used, hpassed, -, hkind, rfl⟩
        · exact Fault.points_of_raises hscan hsize (hsplit used hpassed) hreports.raises
        · have hcurrent : stopped.current ∈ tokens := by
            rcases stopped.exists_eq_current_cons with ⟨after, hafter⟩
            rw [hsplit used hpassed, hafter]
            simp
          exact Fault.points_of_token hscan hsize hcurrent hkind rfl (fun _ _ hshown => hshown)
  rcases hpoints with ⟨hlabel, before, after, hsource, hbytes, hpointsAt⟩
  refine ⟨hlabel, ?_, before, after, hsource, hbytes, hpointsAt⟩
  rw [hsource, byteLength_append]
  omega

/-- A second string where the parentheses should be closed, behind characters of two
    bytes: the source goes on with that string, between its quotes. -/
theorem Tag.ofText_error_pointsAt_string :
    byteLength "#[é(x=\"ü\" \"z\")]".toList < UInt32.size ∧
      ∃ fault, Tag.ofText 4 "#[é(x=\"ü\" \"z\")]" = .error fault ∧
        fault.cause = .unexpectedToken "z" "expected `)`" ∧ fault.position.offset = 12 ∧
        ∃ before after, "#[é(x=\"ü\" \"z\")]".toList = before ++ after ∧
          byteLength before = 12 ∧
          Fault.PointsAt "#[é(x=\"ü\" \"z\")]" fault before after := by
  set source := "#[é(x=\"ü\" \"z\")]"
  set tokens : List Token :=
    [⟨.hash, "#", .ofLength defaultLabel 0 1⟩, ⟨.openBracket, "[", .ofLength defaultLabel 1 1⟩,
      ⟨.identifier, "é", .ofLength defaultLabel 2 2⟩, ⟨.openParen, "(", .ofLength defaultLabel 4 1⟩,
      ⟨.identifier, "x", .ofLength defaultLabel 5 1⟩,
      ⟨.assignment, "=", .ofLength defaultLabel 6 1⟩, ⟨.string, "ü", .ofLength defaultLabel 7 4⟩,
      ⟨.string, "z", .ofLength defaultLabel 12 3⟩, ⟨.closeParen, ")", .ofLength defaultLabel 15 1⟩,
      ⟨.closeBracket, "]", .ofLength defaultLabel 16 1⟩, .endOfInput (.ofOffset defaultLabel 17)]
  have hsize : byteLength source.toList < UInt32.size := by decide
  have hscan : Token.scan defaultLabel source = .ok tokens :=
    Token.scan_of_toOption (by decide +kernel)
  set fault : Fault := ⟨.unexpectedToken "z" "expected `)`", .ofOffset defaultLabel 12⟩
  have hrefused : Tag.ofText 4 source = .error fault := by
    rw [ofText_of_scan hscan]
    rfl
  rcases Tag.ofText_error_pointsAt 4 source hsize hrefused with
    ⟨-, -, before, after, hsource, hbytes, hpoints⟩
  exact ⟨hsize, fault, hrefused, rfl, rfl, before, after, hsource, hbytes, hpoints⟩

end Annotations
