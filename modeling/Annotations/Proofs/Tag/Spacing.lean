import Annotations.Proofs.Parser.NestingLimit
import Annotations.Proofs.Tag.RoundTrip
import Annotations.Proofs.Token.Spacing

/-!
# White Space Does Not Matter

A tag may be written with white space between any two of its tokens. Putting some
in leaves the tag that is read as it was, and where none is read the cause is the
same. It may be put in at every offset that is not inside of a token.

There is one place where it does matter. The bracket at the start of a tag has to
follow its hash sign at once, so a source that starts in this way is refused if the
two are parted, and the fault is reported where the hash sign ends.

Both sources are read side by side. Their tokens correspond, since white space only
moves them, and the parser does not look at where tokens stand but in that one
place. There it compares two ends of tokens, and moving them can tell them apart
only if the white space was put in right there.

## Main definitions

* `Token.JoinedAt`: The offset between a hash sign and its bracket.

## Theorems

* `Tag.ofTokens_moved`, `Tag.ofTokens_parted`: Moved tokens are read alike, unless the
  hash sign and the bracket are parted.
* `Tag.ofText_insert_blanks`: White space between tokens does not matter.
-/

namespace Annotations

open Source Text

/-- The tokens start with a hash sign and a bracket that meet at the offset. -/
def Token.JoinedAt (p : Nat) (tokens : List Token) : Prop :=
  ∃ hash opening more, tokens = hash :: opening :: more ∧ hash.kind = .hash ∧
    hash.stopByte = p ∧ opening.kind = .openBracket ∧ opening.startByte = p

namespace Parser

open State

/-- Tokens of which the last ends the input: the parser is given the others. -/
theorem State.ofTokens_concat (body : List Token) {stop : Token} (hstop : stop.kind = .endOfInput)
    (label : String) (maxDepth : Nat) :
    ofTokens (body ++ [stop]) label maxDepth = ⟨body, stop, hstop, label, 0, maxDepth⟩ := by
  simp [ofTokens, hstop]

/-- The same of tokens that have been moved. -/
theorem State.ofTokens_concat_moved (body : List Token) {stop : Token}
    (hstop : stop.kind = .endOfInput) (label : String) (maxDepth p n : Nat) :
    ofTokens ((body ++ [stop]).map (Token.movedFrom p n)) label maxDepth =
      ⟨body.map (Token.movedFrom p n), stop.movedFrom p n, by rw [Token.movedFrom_kind, hstop],
        label, 0, maxDepth⟩ := by
  rw [List.map_append, List.map_singleton]
  exact ofTokens_concat _ _ label maxDepth

theorem alike_movedFrom (p n : Nat) : Alike fun t u => u = t.movedFrom p n where
  kind_eq h := by rw [h, Token.movedFrom_kind]
  text_eq h := by rw [h, Token.movedFrom_text]

/-- Moving tokens keeps a hash sign and a bracket together or apart, unless they meet
    where the tokens are moved from. -/
theorem adjacentAlike_moved {label : String} {cs : List Char} {tokens : List Token} {p n : Nat}
    (h : Token.IsTokenisation label 0 cs tokens) (hsize : byteLength cs + n < UInt32.size)
    (houtside : ∀ t ∈ tokens, ¬ (t.startByte < p ∧ p < t.stopByte))
    (hjoined : n = 0 ∨ ¬ Token.JoinedAt p tokens) (maxDepth : Nat) :
    AdjacentAlike (ofTokens tokens label maxDepth)
      (ofTokens (tokens.map (Token.movedFrom p n)) label maxDepth) := by
  intro hash opening more hash' opening' more' hleft hright hhash hopening
  rcases h.ends with ⟨body, hbody, -⟩
  rw [hbody, ofTokens_concat body rfl] at hleft
  rw [hbody, ofTokens_concat_moved body rfl] at hright
  have hbody' : body = hash :: opening :: more := hleft
  have hmoved : body.map (Token.movedFrom p n) = hash' :: opening' :: more' := hright
  rw [hbody'] at hmoved hbody
  simp only [List.map_cons, List.cons.injEq] at hmoved
  rcases hmoved with ⟨rfl, rfl, -⟩
  -- What is known about the two tokens is put in terms of bytes.
  have hmem : hash ∈ tokens := by simp [hbody]
  have hmem' : opening ∈ tokens := by simp [hbody]
  have hbytes := h.bytes_le (by omega) hmem
  have hbytes' := h.bytes_le (by omega) hmem'
  have houtside' := houtside hash hmem
  have hordered : hash.stopByte ≤ opening.startByte := by
    have hpairs := h.ordered
    rw [hbody] at hpairs
    exact (List.pairwise_cons.mp hpairs).1 opening (by simp)
  have hmeet : n = 0 ∨ ¬ (hash.stopByte = p ∧ opening.startByte = p) := by
    rcases hjoined with hn | hjoined
    · exact Or.inl hn
    · refine Or.inr (fun hmeet => hjoined ?_)
      exact ⟨hash, opening, _, hbody, hhash, hmeet.1, hopening, hmeet.2⟩
  have hlabel : opening.span.start.label = hash.span.stop.label := by
    rw [(h.label_eq hmem').1, (h.label_eq hmem).2]
  have hlabel' : (opening.movedFrom p n).span.start.label =
      (hash.movedFrom p n).span.stop.label := by
    rw [(Token.movedFrom_labels p n opening).1, (Token.movedFrom_labels p n hash).2, hlabel]
  rw [Token.start_eq_stop_iff hlabel, Token.start_eq_stop_iff hlabel']
  -- If only the bracket moves, it moves away from the hash sign, and they did not meet.
  rcases Token.movedFrom_bytes (p := p) (n := n) (t := hash) (by omega) (by omega) with
    ⟨hp, -, hstop⟩ | ⟨hp, hsame⟩
  · rcases Token.movedFrom_bytes (p := p) (n := n) (t := opening) (by omega) (by omega) with
      ⟨hp', hstart, -⟩ | ⟨hp', hsame⟩
    · omega
    · omega
  · rcases Token.movedFrom_bytes (p := p) (n := n) (t := opening) (by omega) (by omega) with
      ⟨hp', hstart, -⟩ | ⟨hp', hsame'⟩
    · rw [hsame]
      omega
    · rw [hsame, hsame']

/-- Moved tokens stand beside those that they come from. -/
theorem ofTokens_beside_moved (body : List Token) {stop : Token} (hstop : stop.kind = .endOfInput)
    (label : String) (maxDepth p n : Nat) :
    (ofTokens (body ++ [stop]) label maxDepth).Beside (fun t u => u = t.movedFrom p n)
      maxDepth maxDepth 0
      (ofTokens ((body ++ [stop]).map (Token.movedFrom p n)) label maxDepth) := by
  rw [ofTokens_concat body hstop, ofTokens_concat_moved body hstop]
  constructor
  case rest =>
    rw [List.forall₂_map_right_iff]
    exact List.forall₂_same.mpr (fun _ _ => rfl)
  case stop => rfl
  case depth_left => rfl
  case depth_right => rfl
  case limit_left => rfl
  case limit_right => rfl

/-- A bracket that stands apart from its hash sign is refused where the hash sign
    ends. -/
theorem wholeTag_detached {s : State} {hash opening : Token} {more : List Token}
    (hrest : s.rest = hash :: opening :: more) (hhash : hash.kind = .hash)
    (hopening : opening.kind = .openBracket) (hapart : opening.span.start ≠ hash.span.stop) :
    ∃ s', wholeTag s = .error ⟨.detachedHash, hash.span.stop⟩ s' := by
  have hcurrent : s.current = hash := by rw [State.current, hrest]; rfl
  have hcurrent' : s.next.current = opening := by rw [State.current, State.next, hrest]; rfl
  have hkind : s.kind = .hash := by rw [State.kind, hcurrent, hhash]
  have hkind' : s.next.kind = .openBracket := by rw [State.kind, hcurrent', hopening]
  have hadjacent : adjacent hash opening s.next.next =
      .error ⟨.detachedHash, hash.span.stop⟩ s.next.next := by
    rw [adjacent, if_neg hapart]
  refine ⟨s.next.next, bind_error ?_⟩
  unfold tag
  rw [bind_ok (expect_of_kind hkind), bind_ok (expect_of_kind hkind'), hcurrent, hcurrent',
    bind_error hadjacent]

end Parser

namespace Tag

/-- Once a source has been scanned, what is left is to read its tokens. -/
theorem ofText_of_scan {source : String} {tokens : List Token}
    (h : Token.scan defaultLabel source = .ok tokens) (maxDepth : Nat) :
    Tag.ofText maxDepth source = Tag.ofTokens tokens defaultLabel maxDepth := by
  rw [Tag.ofText, Tag.ofSource, h]
  rfl

/-- Moved tokens give the same tag, or a fault with the same cause, unless they part a
    hash sign from its bracket. -/
theorem ofTokens_moved {label : String} {cs : List Char} {tokens : List Token} {p n : Nat}
    (h : Token.IsTokenisation label 0 cs tokens) (hsize : byteLength cs + n < UInt32.size)
    (houtside : ∀ t ∈ tokens, ¬ (t.startByte < p ∧ p < t.stopByte))
    (hjoined : n = 0 ∨ ¬ Token.JoinedAt p tokens) (maxDepth : Nat) :
    (Tag.ofTokens (tokens.map (Token.movedFrom p n)) label maxDepth).mapError Fault.cause =
      (Tag.ofTokens tokens label maxDepth).mapError Fault.cause := by
  have hadjacent := Parser.adjacentAlike_moved h hsize houtside hjoined maxDepth
  rcases h.ends with ⟨body, rfl, -⟩
  have houtcome := Parser.outcome_wholeTag (Parser.alike_movedFrom p n) le_rfl
    (Parser.ofTokens_beside_moved body rfl label maxDepth p n) hadjacent
  unfold Tag.ofTokens
  generalize Parser.wholeTag (.ofTokens _ label maxDepth) = left at houtcome ⊢
  generalize Parser.wholeTag (.ofTokens _ label maxDepth) = right at houtcome ⊢
  cases houtcome with
  | ok htag _ =>
      rw [htag]
  | error hfaults => exact congrArg Except.error hfaults.cause_eq
  | tooDeep hlt _ _ => exact absurd hlt (Nat.lt_irrefl _)

/-- Tokens that are moved from between a hash sign and its bracket are refused. -/
theorem ofTokens_parted {label : String} {cs : List Char} {tokens : List Token} {p n : Nat}
    (h : Token.IsTokenisation label 0 cs tokens) (hsize : byteLength cs + n < UInt32.size)
    (hpos : 0 < n) (hjoined : Token.JoinedAt p tokens) (maxDepth : Nat) :
    Tag.ofTokens (tokens.map (Token.movedFrom p n)) label maxDepth =
      .error ⟨.detachedHash, .ofOffset label p⟩ := by
  rcases hjoined with ⟨hash, opening, more, htokens, hhash, hstop, hopening, hstart⟩
  have hmem : hash ∈ tokens := by simp [htokens]
  have hmem' : opening ∈ tokens := by simp [htokens]
  have hbytes := h.startByte_lt (by omega) hmem (by simp [hhash])
  have hbytes' := h.bytes_le (by omega) hmem'
  -- The hash sign stays, and the bracket moves away from it.
  have hstays : hash.movedFrom p n = hash := Token.movedFrom_of_lt (by omega)
  have hapart : (opening.movedFrom p n).span.start ≠ hash.span.stop := by
    have hlabel : (opening.movedFrom p n).span.start.label = hash.span.stop.label := by
      rw [(Token.movedFrom_labels p n opening).1, (h.label_eq hmem').1, (h.label_eq hmem).2]
    rw [ne_eq, Token.start_eq_stop_iff hlabel]
    rcases Token.movedFrom_bytes (p := p) (n := n) (t := opening) (by omega) (by omega) with
      ⟨-, hmoved, -⟩ | ⟨hlt, -⟩
    · omega
    · omega
  have hposition : hash.span.stop = .ofOffset label p := by
    rw [← hstop, ← (h.label_eq hmem).2]
    unfold Token.stopByte Position.ofOffset
    rw [UInt32.ofNat_toNat]
  -- Neither of the two tokens is the one at the end.
  have hrest : ∃ others, (Parser.State.ofTokens (tokens.map (Token.movedFrom p n)) label
      maxDepth).rest = hash :: opening.movedFrom p n :: others := by
    rcases h.ends with ⟨body, hbody, -⟩
    rw [hbody] at htokens
    rcases body with _ | ⟨t, _ | ⟨u, body⟩⟩
    · cases htokens
    · injection htokens with _ htokens
      injection htokens with hlast _
      rw [← hlast] at hopening
      cases hopening
    · injection htokens with ht htokens
      injection htokens with hu _
      refine ⟨body.map (Token.movedFrom p n), ?_⟩
      rw [hbody, Parser.State.ofTokens_concat_moved _ rfl, ht, hu, List.map_cons, List.map_cons,
        hstays]
  rcases hrest with ⟨others, hrest⟩
  have hkind : (opening.movedFrom p n).kind = .openBracket := by
    rw [Token.movedFrom_kind, hopening]
  rcases Parser.wholeTag_detached hrest hhash hkind hapart with ⟨s', hs'⟩
  rw [Tag.ofTokens, hs', hposition]

/-- White space between tokens does not matter. Put in at any offset that is not inside
    of a token, it moves the tokens from there on, and the source is read as the same
    tag or refused for the same cause. Only a hash sign and its bracket at the start may
    not be parted: then the source is refused where the hash sign ends. -/
theorem ofText_insert_blanks (maxDepth p : Nat) (source space : String) {tokens : List Token}
    (hscan : Token.scan defaultLabel source = .ok tokens)
    (hp : Token.IsBoundary source.toList tokens p) (hspace : ∀ c ∈ space.toList, isBlank c = true)
    (hsize : byteLength source.toList + byteLength space.toList < UInt32.size) :
    ∃ a b, source = a ++ b ∧ byteLength a.toList = p ∧
      Token.scan defaultLabel (a ++ space ++ b) =
        .ok (tokens.map (Token.movedFrom p (byteLength space.toList))) ∧
      (¬ (space ≠ "" ∧ Token.JoinedAt p tokens) →
        (Tag.ofText maxDepth (a ++ space ++ b)).mapError Fault.cause =
          (Tag.ofText maxDepth source).mapError Fault.cause) ∧
      (space ≠ "" → Token.JoinedAt p tokens →
        Tag.ofText maxDepth (a ++ space ++ b) =
          .error ⟨.detachedHash, .ofOffset defaultLabel p⟩) := by
  have hwidth : byteLength source.toList < UInt32.size := by omega
  have hcut := Token.scanFrom_eq_ok_iff.mp hscan
  have htokens := hcut.isTokenisation (by omega)
  rcases htokens.exists_split hwidth hp with ⟨a, b, hsource, hlength, houtside⟩
  have hinsert := hcut.insert hsource hspace (by omega)
    (by rw [hlength, Nat.zero_add]; exact houtside)
  rw [hlength, Nat.zero_add] at hinsert
  have hscan' : Token.scan defaultLabel (String.ofList a ++ space ++ String.ofList b) =
      .ok (tokens.map (Token.movedFrom p (byteLength space.toList))) := by
    rw [Token.scan, Token.scanFrom_eq_ok_iff]
    simpa using hinsert
  refine ⟨String.ofList a, String.ofList b, ?_, by simpa using hlength, hscan', ?_, ?_⟩
  · rw [← String.ofList_append, ← hsource, String.ofList_toList]
  · intro hapart
    rw [ofText_of_scan hscan', ofText_of_scan hscan]
    refine ofTokens_moved htokens hsize houtside ?_ maxDepth
    by_cases hempty : space = ""
    · rw [hempty]
      exact Or.inl rfl
    · exact Or.inr (fun hjoined => hapart ⟨hempty, hjoined⟩)
  · intro hne hjoined
    rw [ofText_of_scan hscan']
    refine ofTokens_parted htokens hsize ?_ hjoined maxDepth
    by_contra hzero
    have hnil : space.toList = [] := byteLength_eq_zero (by omega)
    exact hne (String.toList_eq_nil_iff.mp hnil)

/-- White space of three bytes in two places of one source: in front of its end it
    leaves the tag as it is, and behind its hash sign it does not. -/
theorem ofText_insert_blanks_parted :
    ∃ tokens, Token.scan defaultLabel "#[a]" = .ok tokens ∧
      Token.IsBoundary "#[a]".toList tokens 1 ∧ Token.IsBoundary "#[a]".toList tokens 3 ∧
      (∃ a b, "#[a]" = a ++ b ∧ byteLength a.toList = 1 ∧
        Tag.ofText 4 (a ++ "\u3000" ++ b) = .error ⟨.detachedHash, .ofOffset defaultLabel 1⟩) ∧
      ∃ a b, "#[a]" = a ++ b ∧ byteLength a.toList = 3 ∧
        (Tag.ofText 4 (a ++ "\u3000" ++ b)).mapError Fault.cause = .ok ⟨"a", []⟩ := by
  set tokens : List Token :=
    [⟨.hash, "#", .ofLength defaultLabel 0 1⟩, ⟨.openBracket, "[", .ofLength defaultLabel 1 1⟩,
      ⟨.identifier, "a", .ofLength defaultLabel 2 1⟩,
      ⟨.closeBracket, "]", .ofLength defaultLabel 3 1⟩, .endOfInput (.ofOffset defaultLabel 4)]
    with htokens
  have hscan : Token.scan defaultLabel "#[a]" = .ok tokens :=
    Token.scan_of_toOption (by decide +kernel)
  have hblank : ∀ c ∈ "\u3000".toList, isBlank c = true := List.all_eq_true.mp rfl
  have hsize : byteLength "#[a]".toList + byteLength "\u3000".toList < UInt32.size := by decide
  have hone : Token.IsBoundary "#[a]".toList tokens 1 :=
    Or.inr (Or.inr (Or.inl ⟨_, List.mem_cons_self, Or.inr rfl⟩))
  have hthree : Token.IsBoundary "#[a]".toList tokens 3 := by
    refine Or.inr (Or.inr (Or.inl ⟨⟨.closeBracket, "]", .ofLength defaultLabel 3 1⟩, ?_, Or.inl rfl⟩))
    simp [htokens]
  have hjoined : Token.JoinedAt 1 tokens := ⟨_, _, _, rfl, rfl, rfl, rfl, rfl⟩
  have hapart : ¬ Token.JoinedAt 3 tokens := by
    intro hjoined
    rcases hjoined with ⟨hash, opening, more, heq, -, hstop, -⟩
    rw [htokens] at heq
    injection heq with hhash _
    rw [← hhash] at hstop
    exact absurd hstop (by decide)
  rcases ofText_insert_blanks 4 1 "#[a]" "\u3000" hscan hone hblank hsize with
    ⟨a, b, hab, ha, -, -, hparted⟩
  rcases ofText_insert_blanks 4 3 "#[a]" "\u3000" hscan hthree hblank hsize with
    ⟨c, d, hcd, hc, -, hsame, -⟩
  refine ⟨tokens, hscan, hone, hthree, ⟨a, b, hab, ha, hparted (by decide) hjoined⟩,
    c, d, hcd, hc, ?_⟩
  rw [hsame (fun h => hapart h.2), ofText_of_scan hscan]
  rfl

end Tag

end Annotations
