import Annotations.Proofs.Parser.Cursor
import Annotations.Proofs.Tag.Spacing

/-!
# Where Tokens Stand Does Not Matter

Two inputs may have the same tokens at different places: spread out, moved, under
other labels, or with spans that no source would give them. They are read as the
same tag, or refused for the same cause. The position of the fault is then the only
thing that tells the inputs apart, and it comes from the same place in both: where
the tokens of one index start.

Only one comparison of positions is ever made. It is between the first two tokens,
and inputs are asked to agree on its outcome. If it fails, the fault is reported
where the first token ends. That no other tokens are compared is shown by moving all
tokens of an input to one place: nothing is apart there, so no run on the moved tokens
complains of it, and the run on the tokens as they stood does not either.

## Main definitions

* `Token.SaysSame`: One kind and one text.
* `Token.unplaced`, `Parser.State.unplaced`: Tokens that all stand at one place.
* `Token.AtOneIndex`: Tokens of one index, which say the same.

## Theorems

* `Parser.State.beside_ofTokens`: Inputs whose tokens correspond start side by side.
* `Tag.ofTokens_alike`: Inputs whose tokens correspond are read alike.
* `Parser.exists_apart_of_detached`: Only the first two tokens can be apart.
* `Tag.ofTokens_positions_irrelevant`: Where tokens stand does not matter.
-/

namespace Annotations

open Source

/-- Two tokens have one kind and one text, wherever they stand. -/
structure Token.SaysSame (t u : Token) : Prop where
  kind_eq : u.kind = t.kind
  text_eq : u.text = t.text

/-- The token as it would stand at the start of an input without a name. -/
def Token.unplaced (t : Token) : Token :=
  { t with span := ⟨.ofOffset "" 0, .ofOffset "" 0⟩ }

namespace Parser

open State

variable {τ : Token → Token → Prop} {tokens tokens' : List Token} {label label' : String}

/-- Inputs whose tokens correspond one by one, with those that end them, start side
    by side. -/
theorem State.beside_ofTokens
    (h : List.Forall₂ τ (Token.completed label tokens) (Token.completed label' tokens'))
    (maxDepth : Nat) :
    (ofTokens tokens label maxDepth).Beside τ maxDepth maxDepth 0
      (ofTokens tokens' label' maxDepth) := by
  rw [← ofTokens_eq_completed tokens label maxDepth,
    ← ofTokens_eq_completed tokens' label' maxDepth] at h
  have hlength := h.length_eq
  simp only [List.length_append, List.length_singleton, Nat.add_right_cancel_iff] at hlength
  -- The tokens that end the inputs are the last ones, and the others come before.
  have hrest := List.forall₂_take (ofTokens tokens label maxDepth).rest.length h
  have hstop := List.forall₂_drop (ofTokens tokens label maxDepth).rest.length h
  rw [List.take_left, hlength, List.take_left] at hrest
  rw [List.drop_left, hlength, List.drop_left] at hstop
  constructor
  case rest => exact hrest
  case stop =>
    cases hstop with
    | cons hlast _ => exact hlast
  case depth_left => exact ofTokens_depth tokens label maxDepth
  case depth_right => exact ofTokens_depth tokens' label' maxDepth
  case limit_left => exact ofTokens_maxDepth tokens label maxDepth
  case limit_right => exact ofTokens_maxDepth tokens' label' maxDepth

/-- At most the last token is not to be read, so the first two are the first two of
    the input. -/
theorem State.exists_eq_of_rest {first second : Token} {more : List Token} {maxDepth : Nat}
    (h : (ofTokens tokens label maxDepth).rest = first :: second :: more) :
    ∃ others, tokens = first :: second :: others := by
  rcases exists_ofTokens_append tokens label maxDepth with ⟨tail, htail⟩
  rw [h] at htail
  exact ⟨more ++ tail, htail⟩

/-- The state with all tokens at one place. -/
def State.unplaced (s : State) : State :=
  { s with rest := s.rest.map Token.unplaced, stop := s.stop.unplaced, stop_kind := s.stop_kind }

theorem alike_unplaced : Alike fun t u => u = t.unplaced where
  kind_eq h := by
    rw [h]
    rfl
  text_eq h := by
    rw [h]
    rfl

theorem State.beside_unplaced (s : State) :
    s.Beside (fun t u => u = t.unplaced) s.maxDepth s.maxDepth s.depth s.unplaced where
  rest := by
    unfold State.unplaced
    rw [List.forall₂_map_right_iff]
    exact List.forall₂_same.mpr fun _ _ => rfl
  stop := rfl
  depth_left := rfl
  depth_right := rfl
  limit_left := rfl
  limit_right := rfl

/-- Where all tokens stand at one place, none are apart. -/
theorem cause_ne_of_unplaced {s s' : State} {fault : Fault}
    (h : wholeTag s.unplaced = .error fault s') : fault.cause ≠ .detachedHash := by
  intro hcause
  rcases failed_wholeTag h with ⟨used, hpassed, hreports⟩ | ⟨used, -, -, -, rfl⟩
  · -- Tokens that have been passed are among those that were moved.
    have hplace : ∀ t ∈ used, t.span = ⟨.ofOffset "" 0, .ofOffset "" 0⟩ := by
      intro t ht
      have hmem : t ∈ s.rest.map Token.unplaced := by
        show t ∈ s.unplaced.rest
        rw [hpassed.rest_eq]
        exact List.mem_append_left _ ht
      rcases List.mem_map.mp hmem with ⟨u, -, rfl⟩
      rfl
    cases hreports.raises with
    | detached hused _ _ hapart =>
        apply hapart
        rw [hplace _ (by simp [hused]), hplace _ (by simp [hused])]
    | unexpected _ =>
        unfold State.unexpected at hcause
        split at hcause <;> cases hcause
    | emptyAttributes _ | nested _ | number _ | tooDeep _ | mixed _ _ _ _ _ _ => cases hcause
  · cases hcause

/-- A hash sign is said to stand apart from its bracket only if the first two tokens
    are such. -/
theorem exists_apart_of_detached {s s' : State} {fault : Fault}
    (h : wholeTag s = .error fault s') (hcause : fault.cause = .detachedHash) :
    ∃ hash opening more, s.rest = hash :: opening :: more ∧ hash.kind = .hash ∧
      opening.kind = .openBracket ∧ opening.span.start ≠ hash.span.stop := by
  by_contra hnone
  push Not at hnone
  -- The first two tokens are not apart, so moving all of them changes nothing there.
  have hadjacent : AdjacentAlike s s.unplaced := by
    intro hash opening more hash' opening' more' hleft hright hhash hopening
    have hmoved : s.rest.map Token.unplaced = hash' :: opening' :: more' := hright
    rw [hleft] at hmoved
    simp only [List.map_cons, List.cons.injEq] at hmoved
    rcases hmoved with ⟨rfl, rfl, -⟩
    exact iff_of_true rfl (hnone hash opening more hleft hhash hopening)
  have houtcome := outcome_wholeTag alike_unplaced (Nat.le_refl _) s.beside_unplaced hadjacent
  rw [h] at houtcome
  generalize hmoved : wholeTag s.unplaced = result at houtcome
  cases houtcome with
  | error hfaults => exact cause_ne_of_unplaced hmoved (hfaults.cause_eq.trans hcause)
  | tooDeep _ _ _ => cases hcause

end Parser

namespace Token

/-- Inputs with the same tokens are completed by the same tokens. -/
theorem forall₂_completed {tokens tokens' : List Token} (h : List.Forall₂ SaysSame tokens tokens')
    (label label' : String) :
    List.Forall₂ SaysSame (completed label tokens) (completed label' tokens') := by
  have hends : ∀ p q : Position, (endOfInput p).SaysSame (endOfInput q) := fun _ _ => ⟨rfl, rfl⟩
  -- Only the last tokens decide, so the lists are taken apart from behind.
  have hreverse := List.forall₂_reverse_iff.mpr h
  rcases List.eq_nil_or_concat tokens with rfl | ⟨front, last, rfl⟩
  · rw [List.forall₂_nil_left_iff.mp h]
    exact .cons (hends _ _) .nil
  · rcases List.eq_nil_or_concat tokens' with rfl | ⟨front', last', rfl⟩
    · exact absurd h.length_eq (by simp)
    · simp only [List.concat_eq_append, List.reverse_append, List.reverse_singleton,
        List.singleton_append, List.forall₂_cons] at hreverse
      have hlast : last'.kind = last.kind := hreverse.1.kind_eq
      rw [List.concat_eq_append, List.concat_eq_append] at h ⊢
      simp only [completed, List.getLast?_concat, hlast]
      split
      · exact h
      · exact List.rel_append h (.cons (hends _ _) .nil)

/-- Tokens that say the same, and stand at one index of both inputs. -/
def AtOneIndex (whole whole' : List Token) (t u : Token) : Prop :=
  t.SaysSame u ∧ ∃ i : Nat, whole[i]? = some t ∧ whole'[i]? = some u

theorem alike_atOneIndex (whole whole' : List Token) :
    Parser.Alike (AtOneIndex whole whole') where
  kind_eq h := h.1.kind_eq
  text_eq h := h.1.text_eq

/-- Tokens that correspond in order stand at one index. -/
theorem forall₂_atOneIndex {whole whole' : List Token} (h : List.Forall₂ SaysSame whole whole') :
    List.Forall₂ (AtOneIndex whole whole') whole whole' := by
  rw [List.forall₂_iff_zip] at h ⊢
  refine ⟨h.1, fun {t u} hmem => ⟨h.2 hmem, ?_⟩⟩
  rcases List.getElem?_of_mem hmem with ⟨i, hi⟩
  exact ⟨i, List.getElem?_zip_eq_some.mp hi⟩

end Token

namespace Tag

variable {tokens tokens' : List Token} {label label' : String}

/-- Inputs whose tokens correspond are read as one tag or refused alike, if they agree
    on whether their first two tokens are apart. -/
theorem ofTokens_alike {τ : Token → Token → Prop} (hτ : Parser.Alike τ)
    (h : List.Forall₂ τ (Token.completed label tokens) (Token.completed label' tokens'))
    {maxDepth : Nat}
    (hadjacent : Parser.AdjacentAlike (.ofTokens tokens label maxDepth)
      (.ofTokens tokens' label' maxDepth)) :
    (∃ t, Tag.ofTokens tokens label maxDepth = .ok t ∧
      Tag.ofTokens tokens' label' maxDepth = .ok t) ∨
    ∃ f g, Tag.ofTokens tokens label maxDepth = .error f ∧
      Tag.ofTokens tokens' label' maxDepth = .error g ∧ Parser.FaultsAlike τ f g := by
  have houtcome := Parser.outcome_wholeTag hτ (Nat.le_refl _)
    (Parser.State.beside_ofTokens h maxDepth) hadjacent
  unfold Tag.ofTokens
  generalize Parser.wholeTag (.ofTokens tokens label maxDepth) = left at houtcome ⊢
  generalize Parser.wholeTag (.ofTokens tokens' label' maxDepth) = right at houtcome ⊢
  cases houtcome with
  | ok htag _ => exact Or.inl ⟨_, rfl, by rw [htag]⟩
  | error hfaults => exact Or.inr ⟨_, _, rfl, rfl, hfaults⟩
  | tooDeep hlt _ _ => exact absurd hlt (Nat.lt_irrefl _)

/-- The first two tokens are apart, and so the fault is where the first one ends. -/
theorem exists_first_of_detached {maxDepth : Nat} {fault : Fault}
    (h : Tag.ofTokens tokens label maxDepth = .error fault)
    (hcause : fault.cause = .detachedHash) :
    ∃ first, tokens[0]? = some first ∧ fault.position = first.span.stop := by
  rcases exists_of_ofTokens_eq_error h with ⟨stopped, hstopped⟩
  rcases Parser.exists_apart_of_detached hstopped hcause with
    ⟨hash, opening, more, hrest, hhash, hopening, hapart⟩
  rcases Parser.wholeTag_detached hrest hhash hopening hapart with ⟨s', hs'⟩
  rw [hstopped] at hs'
  cases hs'
  rcases Parser.State.exists_eq_of_rest hrest with ⟨others, htokens⟩
  exact ⟨hash, by rw [htokens]; rfl, rfl⟩

/-- Where tokens stand does not matter. Inputs with the same tokens, which agree on
    whether the second token starts where the first one ends, are read as one tag or
    refused for one cause. The faults are reported where tokens of one index start, the
    one that completes an input among them, and a hash sign that stands apart is reported
    where the first tokens end. -/
theorem ofTokens_positions_irrelevant (label label' : String) (maxDepth : Nat)
    (hsame : List.Forall₂ Token.SaysSame tokens tokens')
    (hjoined : ∀ first second more first' second' more', tokens = first :: second :: more →
      tokens' = first' :: second' :: more' →
      (first.span.stop = second.span.start ↔ first'.span.stop = second'.span.start)) :
    (∃ t, Tag.ofTokens tokens label maxDepth = .ok t ∧
      Tag.ofTokens tokens' label' maxDepth = .ok t) ∨
    ∃ f g, Tag.ofTokens tokens label maxDepth = .error f ∧
      Tag.ofTokens tokens' label' maxDepth = .error g ∧ g.cause = f.cause ∧
      (f.cause ≠ .detachedHash → ∃ (i : Nat) (t u : Token),
        (Token.completed label tokens)[i]? = some t ∧
        (Token.completed label' tokens')[i]? = some u ∧
        f.position = t.span.start ∧ g.position = u.span.start) ∧
      (f.cause = .detachedHash → ∃ t u, tokens[0]? = some t ∧ tokens'[0]? = some u ∧
        f.position = t.span.stop ∧ g.position = u.span.stop) := by
  have hadjacent : Parser.AdjacentAlike (.ofTokens tokens label maxDepth)
      (.ofTokens tokens' label' maxDepth) := by
    intro first second more first' second' more' hleft hright _ _
    rcases Parser.State.exists_eq_of_rest hleft with ⟨others, htokens⟩
    rcases Parser.State.exists_eq_of_rest hright with ⟨others', htokens'⟩
    rw [eq_comm, ← hjoined _ _ _ _ _ _ htokens htokens', eq_comm]
  have hindexed := Token.forall₂_atOneIndex (Token.forall₂_completed hsame label label')
  rcases ofTokens_alike (Token.alike_atOneIndex _ _) hindexed hadjacent with
    hok | ⟨f, g, hf, hg, hfaults⟩
  · exact Or.inl hok
  · refine Or.inr ⟨f, g, hf, hg, hfaults.cause_eq, fun hcause => ?_, fun hcause => ?_⟩
    · rcases hfaults.position with ⟨t, u, ⟨-, i, ht, hu⟩, hp, hq⟩ | ⟨hdetached, -⟩
      · exact ⟨i, t, u, ht, hu, hp, hq⟩
      · exact absurd hdetached hcause
    · -- Both runs complain of their own first two tokens.
      rcases exists_first_of_detached hf hcause with ⟨t, ht, hp⟩
      rcases exists_first_of_detached hg (hfaults.cause_eq.trans hcause) with ⟨u, hu, hq⟩
      exact ⟨t, u, ht, hu, hp, hq⟩

/-- A list of mixed elements, once as it stands in a source and once with all tokens at
    one place. Either run reports where its own tenth token starts. -/
theorem ofTokens_positions_irrelevant_mixed :
    let tokens : List Token :=
      [⟨.hash, "#", .ofLength "ref" 0 1⟩, ⟨.openBracket, "[", .ofLength "ref" 1 1⟩,
        ⟨.identifier, "a", .ofLength "ref" 2 1⟩, ⟨.openParen, "(", .ofLength "ref" 3 1⟩,
        ⟨.identifier, "x", .ofLength "ref" 4 1⟩, ⟨.assignment, "=", .ofLength "ref" 5 1⟩,
        ⟨.openBracket, "[", .ofLength "ref" 6 1⟩, ⟨.string, "", .ofLength "ref" 7 2⟩,
        ⟨.comma, ",", .ofLength "ref" 9 1⟩, ⟨.trueWord, "true", .ofLength "ref" 10 4⟩,
        ⟨.closeBracket, "]", .ofLength "ref" 14 1⟩]
    List.Forall₂ Token.SaysSame tokens (tokens.map Token.unplaced) ∧
    ∃ f g, Tag.ofTokens tokens "ref" 4 = .error f ∧
      Tag.ofTokens (tokens.map Token.unplaced) "other" 4 = .error g ∧
      f.cause = .mixedList 1 "String" "Bool" ∧ g.cause = f.cause ∧
      ∃ (i : Nat) (t u : Token), (Token.completed "ref" tokens)[i]? = some t ∧
        (Token.completed "other" (tokens.map Token.unplaced))[i]? = some u ∧
        t.span.start = .ofOffset "ref" 10 ∧ f.position = t.span.start ∧
        g.position = u.span.start := by
  intro tokens
  have hsame : List.Forall₂ Token.SaysSame tokens (tokens.map Token.unplaced) := by
    rw [List.forall₂_map_right_iff]
    exact List.forall₂_same.mpr fun _ _ => ⟨rfl, rfl⟩
  have hfault : Tag.ofTokens tokens "ref" 4 =
      .error ⟨.mixedList 1 "String" "Bool", .ofOffset "ref" 10⟩ := rfl
  have hjoined : ∀ first second more first' second' more', tokens = first :: second :: more →
      tokens.map Token.unplaced = first' :: second' :: more' →
      (first.span.stop = second.span.start ↔ first'.span.stop = second'.span.start) := by
    intro first second more first' second' more' hleft hright
    injection hleft with hfirst hleft
    injection hleft with hsecond _
    injection hright with hfirst' hright
    injection hright with hsecond' _
    rw [← hfirst, ← hsecond, ← hfirst', ← hsecond']
    exact iff_of_true rfl rfl
  rcases ofTokens_positions_irrelevant "ref" "other" 4 hsame hjoined with
    ⟨t, hok, -⟩ | ⟨f, g, hf, hg, hcause, hplace, -⟩
  · rw [hfault] at hok
    cases hok
  · rw [hfault] at hf
    cases hf
    rcases hplace (by simp) with ⟨i, t, u, ht, hu, hp, hq⟩
    exact ⟨hsame, _, g, hfault, hg, rfl, hcause, i, t, u, ht, hu, hp.symm, hp, hq⟩

end Tag

end Annotations
