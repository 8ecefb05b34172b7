import Annotations.Proofs.Token.Joining

/-!
# Where Scanning Stops

The scanner fails where it meets a character that it cannot use, and this module says
when that is so, in terms of the source alone: what is in front of the character has
tokens by itself, and the character neither starts a token nor goes on with the last one.
Some characters are refused or not depending on what is in front of them. A numeral other
than a digit may go on with a word, and a point with a whole number, but neither starts
anything.

What is in front of the character was cut with the character behind it, while what is
said about it is that it can be cut alone. The two differ at the last token, since the end
of a source stops every token. `CutBefore` keeps what follows in view, so that a text is
cut into tokens none of which could have gone on. It is then the same whether the text is
followed by what was in view or by nothing at all.

## Main definitions

* `StartsNothing`: A character that no lexeme starts with.
* `Token.CutBefore`: A text is cut into tokens in front of another one.
* `Token.ContinuedBy`: A character that goes on with a token.
* `Token.Unrecognised`, `Token.Unterminated`: A character that is refused, and a quote that
  is not closed.

## Theorems

* `Lexeme.read_eq_unrecognised_iff`, `Lexeme.read_eq_unterminated_iff`: Characters that start
  no lexeme.
* `Token.CutBefore.scanFrom_append`, `Token.CutBefore.cut`: A text in front of another one, and
  alone.
* `Token.Cut.cutBefore`: A text whose last token does not go on.
* `Token.scanFrom_eq_error_iff`: The scanner fails behind what it has cut.
* `Token.scan_error_exact`: Where the scanner fails, and on which character.
-/

namespace Annotations

open Source Text

/-- Two ways to part a text at one offset are the same. -/
theorem Text.append_of_byteLength_eq {a b x y : List Char} (h : a ++ x = b ++ y)
    (heq : byteLength a = byteLength b) : a = b ∧ x = y := by
  rcases append_of_byteLength_le h (Nat.le_of_eq heq) with ⟨m, rfl, rfl⟩
  have hm : m = [] := by
    rw [byteLength_append] at heq
    exact byteLength_eq_zero (by omega)
  rw [hm, List.append_nil]
  exact ⟨rfl, rfl⟩

/-- A character that is no white space and that no token starts with. -/
structure StartsNothing (c : Char) : Prop where
  not_blank : isBlank c = false
  not_letter : isLetter c = false
  ne_underscore : c ≠ '_'
  not_digit : c.isDigit = false
  ne_quote : c ≠ '"'
  not_mark : c ∉ ['#', '[', ']', '{', '}', '(', ')', '=', ',']

theorem punctuation?_eq_none_iff {c : Char} :
    punctuation? c = none ↔ c ∉ ['#', '[', ']', '{', '}', '(', ')', '=', ','] := by
  unfold punctuation?
  split <;> simp_all

theorem isWordStart_eq_false_iff {c : Char} :
    isWordStart c = false ↔ isLetter c = false ∧ c ≠ '_' := by
  unfold isWordStart
  rw [Bool.or_eq_false_iff, beq_eq_false_iff_ne]

namespace Lexeme

/-- A character is refused exactly if no lexeme starts with it. -/
theorem read_eq_unrecognised_iff {c : Char} {cs : List Char} {text : String} :
    read c cs = .error (.unrecognised text) ↔ text = String.singleton c ∧ StartsNothing c := by
  unfold read
  -- The tests stand in the order of the scanner's own, and only the last one refuses.
  by_cases hword : isWordStart c = true
  · rw [if_pos hword]
    refine iff_of_false (by simp) ?_
    rintro ⟨-, hc⟩
    rw [isWordStart_eq_false_iff.mpr ⟨hc.not_letter, hc.ne_underscore⟩] at hword
    cases hword
  rw [if_neg hword]
  by_cases hdigit : c.isDigit = true
  · rw [if_pos hdigit]
    refine iff_of_false (by simp) ?_
    rintro ⟨-, hc⟩
    exact absurd hdigit (by simp [hc.not_digit])
  rw [if_neg hdigit]
  by_cases hblank : isBlank c = true
  · rw [if_pos hblank]
    refine iff_of_false (by simp) ?_
    rintro ⟨-, hc⟩
    exact absurd hblank (by simp [hc.not_blank])
  rw [if_neg hblank]
  by_cases hquote : c = '"'
  · rw [if_pos hquote]
    refine iff_of_false ?_ (fun hc => hc.2.ne_quote hquote)
    intro h
    split at h <;> cases h
  rw [if_neg hquote]
  cases hmark : punctuation? c with
  | some kind =>
      refine iff_of_false (by simp) ?_
      rintro ⟨-, hc⟩
      rw [punctuation?_eq_none_iff.mpr hc.not_mark] at hmark
      cases hmark
  | none =>
      rw [Bool.not_eq_true] at hword hdigit hblank
      rcases isWordStart_eq_false_iff.mp hword with ⟨hletter, hunderscore⟩
      have hc : StartsNothing c :=
        ⟨hblank, hletter, hunderscore, hdigit, hquote, punctuation?_eq_none_iff.mp hmark⟩
      simp [hc, eq_comm]

/-- A string is refused exactly if there is no other quote behind the first. -/
theorem read_eq_unterminated_iff {c : Char} {cs : List Char} :
    read c cs = .error .unterminatedString ↔ c = '"' ∧ '"' ∉ cs := by
  constructor
  · intro h
    rcases read_eq_error h with ⟨-, hquote, hopen⟩ | hother
    · exact ⟨hquote, hopen⟩
    · cases hother
  · rintro ⟨rfl, hopen⟩
    rw [read_of_isSymbol (by decide), if_pos rfl, if_neg (by simpa using hopen)]

end Lexeme

namespace Token

section CutBefore

variable {label : String} {rest : List Char} {offset : Nat} {cs : List Char} {tokens : List Token}

/-- A text, which starts at an offset, is cut into the tokens in front of another text.
    None of them could have gone on, the last one in front of the other text included. -/
inductive CutBefore (label : String) (rest : List Char) : Nat → List Char → List Token → Prop where
  | done (offset : Nat) : CutBefore label rest offset [] []
  | blank {offset : Nat} {c : Char} {cs : List Char} {tokens : List Token} :
      isBlank c = true → CutBefore label rest (offset + c.utf8Size) cs tokens →
      CutBefore label rest offset (c :: cs) tokens
  | token {offset : Nat} {kind : Kind} {text piece more : List Char} {tokens : List Token} :
      kind.Writes text piece → kind.StopsBefore (more ++ rest) →
      CutBefore label rest (offset + byteLength piece) more tokens →
      CutBefore label rest offset (piece ++ more)
        (⟨kind, String.ofList text, .ofLength label offset (byteLength piece)⟩ :: tokens)

/-- The scanner gives these tokens, and goes on with the other text. -/
theorem CutBefore.scanFrom_append (h : CutBefore label rest offset cs tokens) :
    scanFrom label offset (cs ++ rest) =
      (scanFrom label (offset + byteLength cs) rest).map (tokens ++ ·) := by
  induction h with
  | done offset =>
      rw [List.nil_append, byteLength_nil, Nat.add_zero]
      cases scanFrom label offset rest <;> rfl
  | blank hc _ ih => rw [List.cons_append, scanFrom_blank hc, ih, byteLength_cons, Nat.add_assoc]
  | @token offset kind text piece more tokens hwrites hstops _ ih =>
      rw [List.append_assoc, scanFrom_token hwrites hstops, ih, byteLength_append, Nat.add_assoc]
      cases scanFrom label (offset + (byteLength piece + byteLength more)) rest <;> rfl

/-- Without the other text, the tokens are the same. -/
theorem CutBefore.cut (h : CutBefore label rest offset cs tokens) :
    Cut label offset cs (tokens ++ [endOfInput (.ofOffset label (offset + byteLength cs))]) := by
  induction h with
  | done offset => exact .done offset
  | blank hc _ ih =>
      rw [Nat.add_assoc, ← byteLength_cons] at ih
      exact .blank hc ih
  | @token offset kind text piece more tokens hwrites hstops _ ih =>
      -- Whatever follows the token is in front of the other text, or there is nothing.
      have hstops' : kind.StopsBefore more := by
        rcases more with _ | ⟨c, more⟩
        · exact Kind.stopsBefore_nil kind
        · exact (stopsBefore_congr rfl kind).mp hstops
      rw [Nat.add_assoc, ← byteLength_append] at ih
      exact .token hwrites hstops' ih

/-- A token that reaches up to the other text could not have gone on there. -/
theorem CutBefore.stopsBefore (h : CutBefore label rest offset cs tokens)
    (hsize : offset + byteLength cs < UInt32.size) :
    ∀ t ∈ tokens, t.stopByte = offset + byteLength cs → t.kind.StopsBefore rest := by
  induction h with
  | done offset => simp
  | blank _ _ ih =>
      rw [byteLength_cons, ← Nat.add_assoc] at hsize ⊢
      exact ih hsize
  | @token offset kind text piece more tokens hwrites hstops _ ih =>
      rw [byteLength_append, ← Nat.add_assoc] at hsize ⊢
      rw [List.forall_mem_cons]
      refine ⟨fun hstop => ?_, ih hsize⟩
      have hend : (⟨kind, String.ofList text, .ofLength label offset (byteLength piece)⟩ :
          Token).stopByte = offset + byteLength piece := toNat_ofOffset label (by omega)
      have hmore : more = [] := byteLength_eq_zero (by omega)
      rw [hmore] at hstops
      exact hstops

/-- A text whose last token could not go on is cut in front of the other text as it is
    cut alone. -/
theorem Cut.cutBefore {body : List Token} {stop : Token}
    (h : Cut label offset cs (body ++ [stop])) (hsize : offset + byteLength cs < UInt32.size)
    (hstops : ∀ t ∈ body, t.stopByte = offset + byteLength cs → t.kind.StopsBefore rest) :
    CutBefore label rest offset cs body := by
  generalize htokens : body ++ [stop] = tokens at h
  induction h generalizing body with
  | done offset =>
      have hnil : body = [] := (htokens ▸ Cut.done offset).body_eq_nil_iff.mpr (by simp)
      rw [hnil]
      exact .done offset
  | blank hc _ ih =>
      rw [byteLength_cons, ← Nat.add_assoc] at hsize hstops
      exact .blank hc (ih hsize hstops htokens)
  | @token offset kind text piece more tokens hwrites hnext hcut ih =>
      rcases hcut.exists_eq_cons htokens.symm with ⟨others, rfl, rfl⟩
      rw [byteLength_append, ← Nat.add_assoc] at hsize hstops
      rw [List.forall_mem_cons] at hstops
      refine .token hwrites ?_ (ih hsize hstops.2 rfl)
      rcases more with _ | ⟨c, more⟩
      · exact hstops.1 (toNat_ofOffset label hsize)
      · exact (stopsBefore_congr rfl kind).mp hnext

/-- Where the scanner fails, what comes before is cut into tokens. -/
theorem exists_cutBefore_of_error {fault : Fault} (h : scanFrom label offset cs = .error fault) :
    ∃ before c after tokens, cs = before ++ c :: after ∧
      CutBefore label (c :: after) offset before tokens ∧
      Lexeme.read c after = .error fault.cause ∧
      fault.position = .ofOffset label (offset + byteLength before) := by
  induction hn : cs.length using Nat.strong_induction_on generalizing offset cs with
  | _ n ih =>
    rcases cs with _ | ⟨c, cs⟩
    · rw [scanFrom] at h
      cases h
    · cases hread : Lexeme.read c cs with
      | error cause =>
          rw [scanFrom, hread] at h
          cases h
          exact ⟨[], c, cs, [], rfl, .done offset, hread, rfl⟩
      | ok lexeme =>
          -- The first lexeme goes through, so the fault is in what comes after it.
          rcases Lexeme.read_cases hread with
            ⟨hblank, -⟩ | ⟨kind, text, tail, more, -, rfl, hwrites, hstops⟩
          · rw [scanFrom_blank hblank] at h
            rcases ih cs.length (by rw [← hn]; exact Nat.lt_succ_self _) h rfl with
              ⟨before, d, after, tokens, rfl, hcut, hd, hposition⟩
            rw [Nat.add_assoc, ← byteLength_cons] at hposition
            exact ⟨c :: before, d, after, tokens, rfl, .blank hblank hcut, hd, hposition⟩
          · have hstep := scanFrom_token hwrites hstops label offset
            rw [List.cons_append] at hstep
            rw [hstep] at h
            cases hrest : scanFrom label (offset + byteLength (c :: tail)) more with
            | ok tokens =>
                rw [hrest] at h
                cases h
            | error other =>
                rw [hrest] at h
                cases h
                have hshorter : more.length < n := by
                  rw [← hn, List.length_cons, List.length_append]
                  omega
                rcases ih _ hshorter hrest rfl with
                  ⟨before, d, after, tokens, rfl, hcut, hd, hposition⟩
                rw [Nat.add_assoc, ← byteLength_append] at hposition
                exact ⟨c :: tail ++ before, d, after, _, by simp, .token hwrites hstops hcut, hd,
                  hposition⟩

/-- The scanner fails exactly behind a text that it has cut into tokens, on a character
    that is refused as a lexeme. -/
theorem scanFrom_eq_error_iff {fault : Fault} :
    scanFrom label offset cs = .error fault ↔
      ∃ before c after tokens, cs = before ++ c :: after ∧
        CutBefore label (c :: after) offset before tokens ∧
        Lexeme.read c after = .error fault.cause ∧
        fault.position = .ofOffset label (offset + byteLength before) := by
  refine ⟨exists_cutBefore_of_error, ?_⟩
  rintro ⟨before, c, after, tokens, rfl, hcut, hread, hposition⟩
  rw [hcut.scanFrom_append, scanFrom, hread, ← hposition]
  rfl

end CutBefore

/-- The character goes on with the token: a numeral with a word, or a point with a whole
    number. -/
def ContinuedBy (t : Token) (c : Char) : Prop :=
  (t.kind = .identifier ∨ t.kind = .trueWord ∨ t.kind = .falseWord) ∧ isNumeral c = true ∨
    t.kind = .integer ∧ c = '.'

/-- A character that starts nothing can only go on with a token in these two ways. -/
theorem stopsBefore_iff_of_startsNothing {c : Char} (hc : StartsNothing c) (t : Token)
    (after : List Char) : t.kind.StopsBefore (c :: after) ↔ ¬ t.ContinuedBy c := by
  have hpart : isWordPart c = isNumeral c := by
    simp [isWordPart, hc.not_letter, hc.ne_underscore]
  unfold Kind.StopsBefore ContinuedBy
  split <;> simp_all [hc.not_digit]

/-- No token goes on with a quote. -/
theorem stopsBefore_quote (kind : Kind) (after : List Char) : kind.StopsBefore ('"' :: after) := by
  have hsymbol : isSymbol '"' = true := by decide
  have hpart := not_isWordPart_of_isSymbol hsymbol
  have hdigit := not_isDigit_of_isSymbol hsymbol
  unfold Kind.StopsBefore
  split <;> simp [hpart, hdigit]

/-- What is in front of the character has tokens, and the character neither starts one
    nor goes on with one that ends there. -/
def Unrecognised (label : String) (before : List Char) (c : Char) : Prop :=
  ∃ tokens, scan label (String.ofList before) = .ok tokens ∧ StartsNothing c ∧
    ∀ t ∈ tokens, t.stopByte = byteLength before → ¬ t.ContinuedBy c

/-- What is in front of the character has tokens, and the character is a quote that no
    other quote follows. -/
def Unterminated (label : String) (before : List Char) (c : Char) (after : List Char) : Prop :=
  (∃ tokens, scan label (String.ofList before) = .ok tokens) ∧ c = '"' ∧ '"' ∉ after

/-- Offsets that 32 bits hold are told apart by their positions. -/
theorem eq_of_ofOffset_eq {label : String} {m n : Nat} (hm : m < UInt32.size)
    (hn : n < UInt32.size) (h : Position.ofOffset label m = .ofOffset label n) : m = n := by
  rw [← toNat_ofOffset label hm, h, toNat_ofOffset label hn]

section

variable {label source : String} {before after : List Char} {c : Char}

/-- A place in a source has no more bytes in front of it than the source has. -/
theorem byteLength_before_lt (hsize : byteLength source.toList < UInt32.size)
    (hsource : source.toList = before ++ c :: after) : byteLength before < UInt32.size := by
  rw [hsource, byteLength_append] at hsize
  omega

/-- A fault that is reported at a character is about that character. -/
theorem exists_of_scan_error (hsize : byteLength source.toList < UInt32.size)
    (hsource : source.toList = before ++ c :: after) {cause : Fault.Cause}
    (h : scan label source = .error ⟨cause, .ofOffset label (byteLength before)⟩) :
    Lexeme.read c after = .error cause ∧
      ∃ tokens, CutBefore label (c :: after) 0 before tokens := by
  rcases scanFrom_eq_error_iff.mp h with
    ⟨before', c', after', tokens, hsource', hcut, hread, hposition⟩
  rw [Nat.zero_add] at hposition
  have hoffset := eq_of_ofOffset_eq (byteLength_before_lt hsize hsource)
    (byteLength_before_lt hsize hsource') hposition
  rw [hsource] at hsource'
  rcases append_of_byteLength_eq hsource' hoffset with ⟨rfl, hrest⟩
  rcases List.cons.inj hrest with ⟨rfl, rfl⟩
  exact ⟨hread, tokens, hcut⟩

/-- Behind a text that has tokens, none of which goes on, a character that is refused is
    reported. -/
theorem scan_error_of_read (hsize : byteLength source.toList < UInt32.size)
    (hsource : source.toList = before ++ c :: after) {tokens : List Token}
    (hscan : scan label (String.ofList before) = .ok tokens)
    (hstops : ∀ t ∈ tokens, t.stopByte = byteLength before → t.kind.StopsBefore (c :: after))
    {cause : Fault.Cause} (hread : Lexeme.read c after = .error cause) :
    scan label source = .error ⟨cause, .ofOffset label (byteLength before)⟩ := by
  have hcut := scanFrom_eq_ok_iff.mp hscan
  rw [String.toList_ofList] at hcut
  have hlt : 0 + byteLength before < UInt32.size := by
    rw [Nat.zero_add]
    exact byteLength_before_lt hsize hsource
  rcases (hcut.isTokenisation hlt).ends with ⟨body, rfl, -⟩
  have hbefore := hcut.cutBefore hlt fun t ht hstop =>
    hstops t (List.mem_append_left _ ht) (by omega)
  refine scanFrom_eq_error_iff.mpr ⟨before, c, after, body, hsource, hbefore, hread, ?_⟩
  rw [Nat.zero_add]

theorem CutBefore.scan_eq {rest : List Char} {tokens : List Token}
    (h : CutBefore label rest 0 before tokens) :
    scan label (String.ofList before) =
      .ok (tokens ++ [endOfInput (.ofOffset label (byteLength before))]) := by
  have hcut := h.cut
  rw [Nat.zero_add] at hcut
  rw [scan, String.toList_ofList]
  exact scanFrom_eq_ok_iff.mpr hcut

/-- A character is reported as unrecognised exactly where it is. -/
theorem scan_eq_unrecognised_iff (hsize : byteLength source.toList < UInt32.size)
    (hsource : source.toList = before ++ c :: after) :
    scan label source =
        .error ⟨.unrecognised (String.singleton c), .ofOffset label (byteLength before)⟩ ↔
      Unrecognised label before c := by
  constructor
  · intro h
    rcases exists_of_scan_error hsize hsource h with ⟨hread, tokens, hcut⟩
    have hc := (Lexeme.read_eq_unrecognised_iff.mp hread).2
    refine ⟨_, hcut.scan_eq, hc, fun t ht hstop => ?_⟩
    rcases List.mem_append.mp ht with ht | ht
    · have hlt := byteLength_before_lt hsize hsource
      exact (stopsBefore_iff_of_startsNothing hc t after).mp
        (hcut.stopsBefore (by omega) t ht (by omega))
    · -- The token for the end does not go on with anything.
      rw [List.mem_singleton.mp ht]
      simp [ContinuedBy, endOfInput]
  · rintro ⟨tokens, hscan, hc, hstops⟩
    refine scan_error_of_read hsize hsource hscan (fun t ht hstop => ?_)
      (Lexeme.read_eq_unrecognised_iff.mpr ⟨rfl, hc⟩)
    exact (stopsBefore_iff_of_startsNothing hc t after).mpr (hstops t ht hstop)

/-- A string is reported as unterminated exactly where it starts. -/
theorem scan_eq_unterminated_iff (hsize : byteLength source.toList < UInt32.size)
    (hsource : source.toList = before ++ c :: after) :
    scan label source = .error ⟨.unterminatedString, .ofOffset label (byteLength before)⟩ ↔
      Unterminated label before c after := by
  constructor
  · intro h
    rcases exists_of_scan_error hsize hsource h with ⟨hread, tokens, hcut⟩
    exact ⟨⟨_, hcut.scan_eq⟩, Lexeme.read_eq_unterminated_iff.mp hread⟩
  · rintro ⟨⟨tokens, hscan⟩, rfl, hopen⟩
    exact scan_error_of_read hsize hsource hscan (fun t _ _ => stopsBefore_quote t.kind after)
      (Lexeme.read_eq_unterminated_iff.mpr ⟨rfl, hopen⟩)

end

/-- Whatever the scanner reports is one of the two faults, at a character of the source. -/
theorem scan_error_cases {label source : String} {fault : Fault}
    (h : scan label source = .error fault) :
    ∃ before c after, source.toList = before ++ c :: after ∧
      (fault = ⟨.unrecognised (String.singleton c), .ofOffset label (byteLength before)⟩ ∨
        fault = ⟨.unterminatedString, .ofOffset label (byteLength before)⟩) := by
  rcases scanFrom_eq_error_iff.mp h with ⟨before, c, after, tokens, hsource, -, hread, hposition⟩
  rw [Nat.zero_add] at hposition
  refine ⟨before, c, after, hsource, ?_⟩
  rcases fault with ⟨cause, position⟩
  rcases Lexeme.read_eq_error hread with ⟨hcause, -⟩ | hcause
  · exact Or.inr (congrArg₂ Fault.mk hcause hposition)
  · exact Or.inl (congrArg₂ Fault.mk hcause hposition)

/-- The scanner fails exactly where a character is unrecognised or a string unterminated,
    and says so there. In a source that it refuses there is one such place and no other. -/
theorem scan_error_exact (label source : String)
    (hsize : byteLength source.toList < UInt32.size) :
    (∀ before c after, source.toList = before ++ c :: after →
      (scan label source =
          .error ⟨.unrecognised (String.singleton c), .ofOffset label (byteLength before)⟩ ↔
        Unrecognised label before c) ∧
      (scan label source = .error ⟨.unterminatedString, .ofOffset label (byteLength before)⟩ ↔
        Unterminated label before c after)) ∧
    (∀ fault, scan label source = .error fault →
      ∃ before c after, source.toList = before ++ c :: after ∧
        (fault = ⟨.unrecognised (String.singleton c), .ofOffset label (byteLength before)⟩ ∨
          fault = ⟨.unterminatedString, .ofOffset label (byteLength before)⟩)) ∧
    ((∃ fault, scan label source = .error fault) ↔
      ∃! p, ∃ before c after, source.toList = before ++ c :: after ∧ byteLength before = p ∧
        (Unrecognised label before c ∨ Unterminated label before c after)) := by
  have hplace : ∀ {before c after}, source.toList = before ++ c :: after →
      (Unrecognised label before c ∨ Unterminated label before c after) →
      ∃ cause, scan label source = .error ⟨cause, .ofOffset label (byteLength before)⟩ := by
    intro before c after hsource h
    rcases h with h | h
    · exact ⟨_, (scan_eq_unrecognised_iff hsize hsource).mpr h⟩
    · exact ⟨_, (scan_eq_unterminated_iff hsize hsource).mpr h⟩
  refine ⟨?_, fun fault => scan_error_cases, ?_, ?_⟩
  · intro before c after hsource
    exact ⟨scan_eq_unrecognised_iff hsize hsource, scan_eq_unterminated_iff hsize hsource⟩
  · rintro ⟨fault, hfault⟩
    rcases scan_error_cases hfault with ⟨before, c, after, hsource, hcases⟩
    refine ⟨byteLength before, ⟨before, c, after, hsource, rfl, ?_⟩, ?_⟩
    · rcases hcases with rfl | rfl
      · exact Or.inl ((scan_eq_unrecognised_iff hsize hsource).mp hfault)
      · exact Or.inr ((scan_eq_unterminated_iff hsize hsource).mp hfault)
    · -- There is one fault, and it has one position.
      rintro _ ⟨before', c', after', hsource', rfl, h'⟩
      rcases hplace hsource' h' with ⟨cause, hfault'⟩
      have hposition : fault.position = .ofOffset label (byteLength before) := by
        rcases hcases with rfl | rfl <;> rfl
      rw [hfault] at hfault'
      rw [Except.error.inj hfault'] at hposition
      exact eq_of_ofOffset_eq (byteLength_before_lt hsize hsource')
        (byteLength_before_lt hsize hsource) hposition
  · rintro ⟨_, ⟨before, c, after, hsource, -, h⟩, -⟩
    rcases hplace hsource h with ⟨cause, hfault⟩
    exact ⟨_, hfault⟩

/-- A numeral that is no digit goes on with a word, but behind white space it is
    refused. -/
theorem scan_error_exact_numeral :
    byteLength "a² ²".toList < UInt32.size ∧
      Unrecognised "x" "a² ".toList '²' ∧
      scan "x" "a² ²" = .error ⟨.unrecognised "²", .ofOffset "x" 4⟩ ∧
      ∃! p, ∃ before c after, "a² ²".toList = before ++ c :: after ∧ byteLength before = p ∧
        (Unrecognised "x" before c ∨ Unterminated "x" before c after) := by
  have hsize : byteLength "a² ²".toList < UInt32.size := by decide
  have hscan : scan "x" (String.ofList "a² ".toList) = .ok
      [⟨.identifier, "a²", .ofLength "x" 0 3⟩, endOfInput (.ofOffset "x" 4)] :=
    scan_of_toOption (by decide +kernel)
  have hnumeral : StartsNothing '²' := by
    constructor <;> decide +kernel
  have hrefused : Unrecognised "x" "a² ".toList '²' := by
    refine ⟨_, hscan, hnumeral, ?_⟩
    intro t ht hstop
    rcases List.mem_pair.mp ht with rfl | rfl
    · exact absurd hstop (by decide)
    · simp [ContinuedBy, endOfInput]
  rcases scan_error_exact "x" "a² ²" hsize with ⟨hplaces, -, hunique⟩
  have hfault := (hplaces "a² ".toList '²' [] rfl).1.mpr hrefused
  exact ⟨hsize, hrefused, hfault, hunique.mp ⟨_, hfault⟩⟩

end Token

end Annotations
