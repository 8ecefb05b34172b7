import Annotations.Proofs.Parser.FailingRules

/-!
# Correct Prefixes

A fault about the order of tokens is reported at the first token that leaves no
hope. The tokens before it begin some annotation, and no annotation begins with
them and a token of that kind. What the fault says was expected is not a guess
either: with a token of any such kind in its place, there would have been hope.

This is about the kinds of tokens alone. An input whose tokens are in order may
still be refused, for a number that is too great, for a list of mixed elements or
for too many maps inside one another, but then the fault is about that and not
about the order.

## Main definitions

* `Sentences.Viable`: Kinds that some annotation begins with.
* `Token.completed`: The tokens of an input with one that ends it.
* `Parser.BreaksOff`: Reading breaks off at a token with a fault.

## Theorems

* `Parser.Reports.breaksOff`, `Parser.breaksOff_trailing`: Reading breaks off inside
  an annotation, or behind it.
* `Tag.ofTokens_correct_prefix`: Faults about the order of tokens are reported at the
  first token that leaves no hope.
-/

namespace Annotations

open Sentences Source

/-- Some annotation begins with the kinds. -/
def Sentences.Viable (ks : List Token.Kind) : Prop :=
  ∃ rest, IsSentence (ks ++ rest)

/-- The tokens of an input, the last of which ends it. A list that does not end its
    input itself is completed where its last token ends. -/
def Token.completed (label : String) (tokens : List Token) : List Token :=
  match tokens.getLast? with
  | none => [.endOfInput (.ofOffset label 0)]
  | some last =>
    if last.kind = .endOfInput then tokens else tokens ++ [.endOfInput last.span.stop]

namespace Parser

/-- What is left at the start are all the tokens of the completed list. -/
theorem State.ofTokens_eq_completed (tokens : List Token) (label : String) (maxDepth : Nat) :
    (ofTokens tokens label maxDepth).rest ++ [(ofTokens tokens label maxDepth).stop] =
      Token.completed label tokens := by
  unfold ofTokens Token.completed
  cases hlast : tokens.getLast? with
  | none => rfl
  | some last =>
      rcases List.getLast?_eq_some_iff.mp hlast with ⟨before, rfl⟩
      by_cases hkind : last.kind = .endOfInput
      · simp [hkind]
      · simp [hkind]

/-- Reading breaks off at a token with a fault: there was hope before the token, and
    there is none with it. -/
structure BreaksOff (before : List Token) (token : Token) (fault : Fault) : Prop where
  /-- The fault is reported where the token starts. -/
  position : fault.position = token.span.start
  /-- Some annotation begins with the tokens before. -/
  viable : Viable (before.map Token.kind)
  /-- No annotation begins with them and with the token. -/
  hopeless : ¬ Viable (before.map Token.kind ++ [token.kind])
  /-- If the input is said to end too early, then it ends there, and is incomplete. -/
  ended : ∀ expected, fault.cause = .unexpectedEnd expected →
    token.kind = .endOfInput ∧ ¬ IsSentence (before.map Token.kind)
  /-- What is said to be expected would have been possible. -/
  possible : ∀ k, fault.cause.Expects k → Viable (before.map Token.kind ++ [k])
  /-- Something is said to be expected if a token or the end was not. -/
  expects : ((∃ text note, fault.cause = .unexpectedToken text note) ∨
    ∃ expected, fault.cause = .unexpectedEnd expected) → ∃ k, fault.cause.Expects k

open State

/-- A failure inside an annotation breaks off at the current token. -/
theorem Reports.breaksOff {used : List Token} {s : State} {fault : Fault}
    (h : Reports IsSentence used s fault) (hcause : fault.cause.AgainstGrammar) :
    BreaksOff used s.current fault := by
  have hstuck := h.stuck hcause
  -- What was read goes on in some annotation, so it is not one itself.
  have hincomplete : ¬ IsSentence (used.map Token.kind) := by
    intro hsentence
    rcases hstuck.continues with ⟨next, rest, hmore⟩
    exact List.cons_ne_nil _ _ (prefixFree_sentence.eq_nil hsentence hmore)
  constructor
  case position =>
    cases h.raises with
    | unexpected _ | emptyAttributes _ | nested _ => rfl
    -- The other faults are not about the order of tokens.
    | number _ | tooDeep _ | detached _ _ _ _ | mixed _ _ _ _ _ _ => exact absurd hcause id
  case viable =>
    rcases hstuck.continues with ⟨next, rest, hmore⟩
    exact ⟨_, hmore⟩
  case hopeless =>
    intro hviable
    rcases hviable with ⟨rest, hrest⟩
    rw [List.append_assoc] at hrest
    exact hstuck.hopeless rest hrest
  case ended =>
    intro expected hended
    refine ⟨?_, hincomplete⟩
    -- The end of the input is reported only where it is.
    cases h.raises with
    | unexpected _ =>
        by_contra hkind
        have hkind : s.kind ≠ .endOfInput := hkind
        simp only [State.unexpected, if_neg hkind] at hended
        cases hended
    | emptyAttributes _ | nested _ | number _ | tooDeep _ => cases hended
    | detached _ _ _ _ | mixed _ _ _ _ _ _ => cases hended
  case possible =>
    intro k hk
    rcases hstuck.possible k hk with ⟨rest, hrest⟩
    exact ⟨rest, by rw [List.append_assoc]; exact hrest⟩
  case expects =>
    intro hunexpected
    cases h.raises with
    | unexpected hnames => exact ⟨_, expects_unexpected_iff.mpr hnames⟩
    | emptyAttributes _ | nested _ | number _ | tooDeep _ | detached _ _ _ _ | mixed _ _ _ _ _ _ =>
        simp at hunexpected

/-- A token after an annotation leaves no hope, since no annotation begins with
    another one. -/
theorem breaksOff_trailing {used : List Token} (hused : IsSentence (used.map Token.kind))
    (token : Token) : BreaksOff used token ⟨.trailingInput token.text, token.span.start⟩ where
  position := rfl
  viable := ⟨[], by rw [List.append_nil]; exact hused⟩
  hopeless := by
    intro hviable
    rcases hviable with ⟨rest, hrest⟩
    rw [List.append_assoc] at hrest
    exact List.cons_ne_nil _ _ (prefixFree_sentence.eq_nil hused hrest)
  ended := by
    intro expected hended
    cases hended
  possible := by
    intro k hk
    exact absurd hk id
  expects := by
    intro hunexpected
    simp at hunexpected

end Parser

/-- A fault about the order of tokens is reported at the first token that leaves no
    hope. Some annotation begins with the tokens before it, none begins with these and
    a token of its kind, and anything that the fault says was expected would have been
    possible. -/
theorem Tag.ofTokens_correct_prefix (tokens : List Token) (label : String) (maxDepth : Nat)
    {fault : Fault} (h : Tag.ofTokens tokens label maxDepth = .error fault)
    (hcause : fault.cause.AgainstGrammar) :
    ∃ before token after stopped,
      Token.completed label tokens = before ++ token :: after ∧
      Parser.wholeTag (.ofTokens tokens label maxDepth) = .error fault stopped ∧
      stopped.rest ++ [stopped.stop] = token :: after ∧
      Parser.BreaksOff before token fault := by
  rcases Tag.exists_of_ofTokens_eq_error h with ⟨stopped, hstopped⟩
  rcases stopped.exists_eq_current_cons with ⟨after, hafter⟩
  -- What has been passed and what is left make up the completed list.
  have hsplit : ∀ used, (Parser.State.ofTokens tokens label maxDepth).Passed used stopped →
      Token.completed label tokens = used ++ stopped.current :: after := by
    intro used hpassed
    rw [← Parser.State.ofTokens_eq_completed tokens label maxDepth, hpassed.rest_eq,
      ← hpassed.stop_eq, List.append_assoc, hafter]
  rcases Parser.failed_wholeTag hstopped with
    ⟨used, hpassed, hreports⟩ | ⟨used, hpassed, hsentence, -, rfl⟩
  · exact ⟨used, stopped.current, after, stopped, hsplit used hpassed, hstopped, hafter,
      hreports.breaksOff hcause⟩
  · exact ⟨used, stopped.current, after, stopped, hsplit used hpassed, hstopped, hafter,
      Parser.breaksOff_trailing hsentence stopped.current⟩

/-- A list that ends in a comma, inside a map: the closing bracket leaves no hope,
    and any scalar would have been possible in its place. -/
theorem Tag.ofTokens_correct_prefix_comma :
    ∃ tokens fault, Tag.ofTokens tokens "ref" 4 = .error fault ∧ fault.cause.AgainstGrammar ∧
      fault = ⟨.unexpectedToken "]" "expected a literal", .ofOffset "ref" 14⟩ ∧
      ∃ before token after, Token.completed "ref" tokens = before ++ token :: after ∧
        Parser.BreaksOff before token fault ∧
        Viable (before.map Token.kind ++ [.float]) := by
  set tokens : List Token :=
    [⟨.hash, "#", .ofLength "ref" 0 1⟩, ⟨.openBracket, "[", .ofLength "ref" 1 1⟩,
      ⟨.identifier, "a", .ofLength "ref" 2 1⟩, ⟨.openParen, "(", .ofLength "ref" 3 1⟩,
      ⟨.identifier, "x", .ofLength "ref" 4 1⟩, ⟨.assignment, "=", .ofLength "ref" 5 1⟩,
      ⟨.openCurly, "\x7b", .ofLength "ref" 6 1⟩, ⟨.identifier, "y", .ofLength "ref" 7 1⟩,
      ⟨.assignment, "=", .ofLength "ref" 8 1⟩, ⟨.openBracket, "[", .ofLength "ref" 9 1⟩,
      ⟨.string, "s", .ofLength "ref" 10 3⟩, ⟨.comma, ",", .ofLength "ref" 13 1⟩,
      ⟨.closeBracket, "]", .ofLength "ref" 14 1⟩, ⟨.closeCurly, "\x7d", .ofLength "ref" 15 1⟩,
      ⟨.closeParen, ")", .ofLength "ref" 16 1⟩, ⟨.closeBracket, "]", .ofLength "ref" 17 1⟩]
  set fault : Fault := ⟨.unexpectedToken "]" "expected a literal", .ofOffset "ref" 14⟩
  have hrefused : Tag.ofTokens tokens "ref" 4 = .error fault := rfl
  have hcause : fault.cause.AgainstGrammar := trivial
  have hexpects : fault.cause.Expects .float :=
    ⟨"a literal", rfl, Fault.names_literal_iff.mpr rfl⟩
  rcases Tag.ofTokens_correct_prefix tokens "ref" 4 hrefused hcause with
    ⟨before, token, after, stopped, hsplit, -, -, hbreaks⟩
  exact ⟨tokens, fault, hrefused, hcause, rfl, before, token, after, hsplit, hbreaks,
    hbreaks.possible _ hexpects⟩

end Annotations
