import Annotations.Proofs.Parser.CorrectPrefix
import Annotations.Proofs.Tag.Spacing
import Annotations.Proofs.Token.Joining

/-!
# What Follows a Tag

A source that is read as a tag is complete. Only white space may be put behind it;
anything else is refused, and the fault tells what was put there: the first token of
it, or what keeps it from having tokens, at the offset where it stands.

The reason is the bracket at the end of a tag. No token goes on behind a bracket, so
the tokens of the source are still there and are still read as the tag, and what comes
next is the first token of the rest. If the rest has no tokens, because it cannot be
scanned, then nothing has been read at all: the scanner runs over the whole source
first, so its fault comes before any of the parser's.

The same bracket makes tags prefix-free: no tag is the start of another one, white space
behind it aside.

## Theorems

* `Tag.ofTokens_trailing`: A token after a tag is refused.
* `Tag.scan_append`: What follows a tag is scanned by itself.
* `Tag.trimEnd_eq_of_starts`: A tag is not the start of another one.
* `Tag.ofText_append`: What may follow a tag, and what is reported.
-/

namespace Annotations

open Grammar Sentences Source Text

/-- Nothing extends the last token of a tag, which is a bracket. -/
theorem Grammar.DerivesTag.endsFirmly {body : List Token} {t : Tag} (h : DerivesTag body t) :
    Token.EndsFirmly body := by
  cases h with
  | mk _ _ _ _ _ hclosing =>
      intro u hu
      rw [List.getLast?_concat] at hu
      cases hu
      exact hclosing

/-- After tokens that make up a tag, another one is refused where it starts. -/
theorem Tag.ofTokens_trailing {body : List Token} {t : Tag} {maxDepth : Nat}
    (hderives : DerivesTag body t) (hnesting : t.nesting ≤ maxDepth)
    (hbody : ∀ u ∈ body, u.kind ≠ .endOfInput) {first : Token} (hfirst : first.kind ≠ .endOfInput)
    (others : List Token) {stop : Token} (hstop : stop.kind = .endOfInput) (label : String) :
    Tag.ofTokens (body ++ first :: others ++ [stop]) label maxDepth =
      .error ⟨.trailingInput first.text, first.span.start⟩ := by
  unfold Tag.ofTokens
  rw [Parser.State.ofTokens_concat _ hstop]
  set start : Parser.State := ⟨body ++ first :: others, stop, hstop, label, 0, maxDepth⟩
  set behind : Parser.State := ⟨first :: others, stop, hstop, label, 0, maxDepth⟩
  have htag : Parser.tag start = .ok t behind :=
    (Parser.accepts_tag start t behind rfl).mpr
      ⟨body, ⟨rfl, rfl, hbody⟩, hderives, hnesting⟩
  have hkind : behind.kind ≠ .endOfInput := hfirst
  have hrefused : Parser.refuseIf (·.kind ≠ .endOfInput) (fun s => .trailingInput s.current.text)
      behind = .error ⟨.trailingInput first.text, first.span.start⟩ behind := by
    rw [Parser.refuseIf, if_pos (decide_eq_true hkind)]
    rfl
  rw [Parser.wholeTag, Parser.bind_ok htag, Parser.bind_error hrefused]

namespace Tag

variable {source : String} {maxDepth : Nat} {t : Tag}

/-- What follows a source whose last token is a bracket is scanned by itself, and its
    tokens come after those of the source. -/
theorem scan_append {body : List Token} {stop : Token}
    (hcut : Token.Cut defaultLabel 0 source.toList (body ++ [stop])) (hbody : Token.EndsFirmly body)
    (rest : String) :
    Token.scan defaultLabel (source ++ rest) =
      (Token.scanFrom defaultLabel (byteLength source.toList) rest.toList).map (body ++ ·) := by
  have hjoined := hcut.scanFrom_append hbody rest.toList
  rw [Nat.zero_add] at hjoined
  rw [Token.scan, String.toList_append, hjoined]

/-- White space may follow. -/
theorem ofText_append_blank (h : Tag.ofText maxDepth source = .ok t) {rest : String}
    (hrest : ∀ c ∈ rest.toList, isBlank c = true) : Tag.ofText maxDepth (source ++ rest) = .ok t := by
  rcases ofSource_eq_ok_iff.mp h with ⟨body, stop, hcut, hclass, -, hderives, hnesting⟩
  have hscan := scan_append hcut hderives.endsFirmly rest
  rw [Token.scanFrom_of_blank hrest] at hscan
  exact ofSource_eq_ok_iff.mpr
    ⟨body, _, Token.scanFrom_eq_ok_iff.mp hscan, hclass, rfl, hderives, hnesting⟩

/-- A token may not follow, and is reported where it starts. -/
theorem ofText_append_token (h : Tag.ofText maxDepth source = .ok t) {rest : String}
    {first : Token} {others : List Token}
    (hscan : Token.scan defaultLabel rest = .ok (first :: others))
    (hfirst : first.kind ≠ .endOfInput)
    (hsize : byteLength rest.toList < UInt32.size) :
    Tag.ofText maxDepth (source ++ rest) = .error ⟨.trailingInput first.text,
      .ofOffset defaultLabel (byteLength source.toList + first.startByte)⟩ := by
  rcases ofSource_eq_ok_iff.mp h with ⟨body, stop, hcut, hclass, -, hderives, hnesting⟩
  set n := byteLength source.toList
  have hrest := Token.scanFrom_eq_ok_iff.mp hscan
  -- The tokens of the rest are the same as by itself, further back.
  have hmoved := hrest.shift (Nat.zero_le 0) n (by omega)
  rw [Nat.zero_add, List.map_cons] at hmoved
  have hkind : (first.movedFrom 0 n).kind ≠ .endOfInput := by
    rw [Token.movedFrom_kind]
    exact hfirst
  have hstart : (first.movedFrom 0 n).span.start = .ofOffset defaultLabel (n + first.startByte) := by
    have hlabel := ((hrest.isTokenisation (by omega)).label_eq List.mem_cons_self).1
    rw [Token.movedFrom, if_pos (Nat.zero_le _), ← hlabel, Nat.add_comm]
    rfl
  rcases hmoved.exists_body with ⟨tokens, stop', htokens, hstop', -⟩
  rcases tokens with _ | ⟨u, tokens⟩
  · rw [List.nil_append] at htokens
    rw [(List.cons.inj htokens).1] at hkind
    exact absurd hstop' hkind
  · have hjoined := scan_append hcut hderives.endsFirmly rest
    rw [Token.scanFrom_eq_ok_iff.mpr hmoved, htokens] at hjoined
    rw [List.cons_append] at htokens
    rw [← (List.cons.inj htokens).1] at hjoined
    have hrefused := ofTokens_trailing hderives hnesting (fun v hv => (hclass v hv).kind_ne) hkind
      tokens hstop' defaultLabel
    rw [Token.movedFrom_text, hstart, List.append_assoc] at hrefused
    rw [ofText_of_scan hjoined]
    exact hrefused

/-- A text without tokens may not follow either, and what is wrong with it is
    reported. -/
theorem ofText_append_error (h : Tag.ofText maxDepth source = .ok t) {rest : String}
    {fault : Fault} (hscan : Token.scan defaultLabel rest = .error fault)
    (hsize : byteLength rest.toList < UInt32.size) :
    Tag.ofText maxDepth (source ++ rest) = .error ⟨fault.cause,
      .ofOffset defaultLabel (byteLength source.toList + fault.position.offset.toNat)⟩ := by
  rcases ofSource_eq_ok_iff.mp h with ⟨body, stop, hcut, -, -, hderives, -⟩
  rcases Token.scanFrom_error_anywhere hscan with ⟨before, c, after, hrest, -, hshift⟩
  have hoffset : fault.position.offset.toNat = byteLength before := by
    rw [Token.scan, hshift, Nat.zero_add] at hscan
    rw [hrest, byteLength_append] at hsize
    rw [← Except.error.inj hscan]
    exact Token.toNat_ofOffset defaultLabel (by omega)
  have hjoined := scan_append hcut hderives.endsFirmly rest
  rw [hshift, ← hoffset] at hjoined
  rw [Tag.ofText, Tag.ofSource, hjoined]
  rfl

/-- A tag is not the start of another one, but for white space. -/
theorem trimEnd_eq_of_starts (h : Tag.ofText maxDepth source = .ok t) {other : String}
    {maxDepth' : Nat} {t' : Tag} (h' : Tag.ofText maxDepth' other = .ok t')
    (hstarts : trimEnd source.toList <+: other.toList) :
    trimEnd other.toList = trimEnd source.toList := by
  rcases ofSource_eq_ok_iff.mp h with ⟨body, stop, hcut, -, -, hderives, -⟩
  rcases ofSource_eq_ok_iff.mp h' with ⟨body', stop', hcut', -, -, hderives', -⟩
  rcases hcut.trimEnd hderives.endsFirmly with ⟨stop₀, htrimmed⟩
  rcases hstarts with ⟨rest, hrest⟩
  -- The other tag has the tokens of this one, and then those of the rest.
  have hjoined := htrimmed.scanFrom_append hderives.endsFirmly rest
  rw [hrest, Token.scanFrom_eq_ok_iff.mpr hcut'] at hjoined
  cases htokens : Token.scanFrom defaultLabel (0 + byteLength (trimEnd source.toList)) rest with
  | error fault =>
      rw [htokens] at hjoined
      cases hjoined
  | ok tokens =>
      have hcutRest := Token.scanFrom_eq_ok_iff.mp htokens
      rcases hcutRest.exists_body with ⟨more, stop₁, rfl, -, -⟩
      rw [htokens] at hjoined
      have hbody : body' = body ++ more := by
        have heq : body' ++ [stop'] = body ++ (more ++ [stop₁]) := Except.ok.inj hjoined
        rw [← List.append_assoc] at heq
        exact (List.append_inj' heq rfl).1
      -- Two sentences of which one starts the other are the same, so nothing is left.
      have hsentence := isSentence_of_derivesTag hderives'
      rw [hbody, List.map_append] at hsentence
      have hnil := prefixFree_sentence.eq_nil (isSentence_of_derivesTag hderives) hsentence
      have hblank := hcutRest.body_eq_nil_iff.mp (List.map_eq_nil_iff.mp hnil)
      rw [← hrest, trimEnd_append_of_blank _ hblank, trimEnd_trimEnd]

/-- Nothing but white space may follow a tag, and what follows is reported: its first
    token where it starts, or the fault that it has by itself where it stands. So no
    source that is read as a tag is the start of another one, white space aside. -/
theorem ofText_append (h : Tag.ofText maxDepth source = .ok t) :
    (∀ rest : String, byteLength source.toList + byteLength rest.toList < UInt32.size →
      ((∀ c ∈ rest.toList, isBlank c = true) → Tag.ofText maxDepth (source ++ rest) = .ok t) ∧
      (∀ first others, Token.scan defaultLabel rest = .ok (first :: others) →
        first.kind ≠ .endOfInput →
        Tag.ofText maxDepth (source ++ rest) = .error ⟨.trailingInput first.text,
          .ofOffset defaultLabel (byteLength source.toList + first.startByte)⟩) ∧
      ∀ fault, Token.scan defaultLabel rest = .error fault →
        Tag.ofText maxDepth (source ++ rest) = .error ⟨fault.cause,
          .ofOffset defaultLabel (byteLength source.toList + fault.position.offset.toNat)⟩) ∧
    ∀ (maxDepth' : Nat) (other : String) (t' : Tag), Tag.ofText maxDepth' other = .ok t' →
      trimEnd source.toList <+: other.toList → trimEnd other.toList = trimEnd source.toList := by
  refine ⟨fun rest hsize => ⟨?_, ?_, ?_⟩, ?_⟩
  · exact fun hrest => ofText_append_blank h hrest
  · intro first others hscan hfirst
    exact ofText_append_token h hscan hfirst (by omega)
  · intro fault hscan
    exact ofText_append_error h hscan (by omega)
  · intro maxDepth' other t' h' hstarts
    exact trimEnd_eq_of_starts h h' hstarts

/-- Behind a tag and white space of three bytes: more white space, a word, and a bracket
    with a quote. The bracket would be refused as a token, but the quote is not closed,
    and that comes first. -/
theorem ofText_append_quote :
    Tag.ofText 4 "#[a]\u3000" = .ok ⟨"a", []⟩ ∧
      Tag.ofText 4 ("#[a]\u3000" ++ "\n") = .ok ⟨"a", []⟩ ∧
      Tag.ofText 4 ("#[a]\u3000" ++ " é ]") =
        .error ⟨.trailingInput "é", .ofOffset defaultLabel 8⟩ ∧
      Tag.ofText 4 ("#[a]\u3000" ++ "]\"") =
        .error ⟨.unterminatedString, .ofOffset defaultLabel 8⟩ := by
  have hread : Tag.ofText 4 "#[a]\u3000" = .ok ⟨"a", []⟩ := by
    have hscan : Token.scan defaultLabel "#[a]\u3000" = .ok
        [⟨.hash, "#", .ofLength defaultLabel 0 1⟩, ⟨.openBracket, "[", .ofLength defaultLabel 1 1⟩,
          ⟨.identifier, "a", .ofLength defaultLabel 2 1⟩,
          ⟨.closeBracket, "]", .ofLength defaultLabel 3 1⟩,
          .endOfInput (.ofOffset defaultLabel 7)] := Token.scan_of_toOption (by decide +kernel)
    rw [ofText_of_scan hscan]
    rfl
  have hword : Token.scan defaultLabel " é ]" = .ok
      [⟨.identifier, "é", .ofLength defaultLabel 1 2⟩,
        ⟨.closeBracket, "]", .ofLength defaultLabel 4 1⟩, .endOfInput (.ofOffset defaultLabel 5)] :=
    Token.scan_of_toOption (by decide +kernel)
  have hquote : Token.scan defaultLabel "]\"" =
      .error ⟨.unterminatedString, .ofOffset defaultLabel 1⟩ := by
    have hbracket : Token.Kind.closeBracket.Writes [']'] [']'] := ⟨rfl, rfl⟩
    have hstops : Token.Kind.closeBracket.StopsBefore ['"'] := trivial
    have hscan := Token.scanFrom_token hbracket hstops defaultLabel 0
    have hrefused : Lexeme.read '"' [] = .error .unterminatedString :=
      Lexeme.read_of_isSymbol (by decide) []
    rw [Token.scanFrom, hrefused] at hscan
    exact hscan
  have happend := (ofText_append hread).1
  refine ⟨hread, (happend "\n" (by decide)).1 (List.all_eq_true.mp rfl), ?_, ?_⟩
  · exact (happend " é ]" (by decide)).2.1 _ _ hword (by decide)
  · exact (happend "]\"" (by decide)).2.2 _ hquote

end Tag

end Annotations
