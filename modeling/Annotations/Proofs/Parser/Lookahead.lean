import Annotations.Proofs.Parser.Cursor
import Annotations.Proofs.Parser.Loops
import Annotations.Proofs.Parser.NestingLimit

/-!
# Nothing Behind the Cursor Is Looked At

Reading a tag stops at some token, and neither the tag nor the fault depends on
what comes after that token. The tokens that end an input are among those where it
stops, so nothing after the first of them matters.

Two runs are compared for this, from states that have their first tokens in common
and differ in what follows. As long as the first run does not leave the common
tokens, the second one does the same. How far the first run goes is known only when
it is over, so `Local` speaks of where it stops. In a sequence of parsers the first
one stops no further than the whole, since no parser goes back; that is the other
half of `Local`, and the two together carry over to sequences.

Lists of items are where the two runs differ in form, because there are not equally
many tokens left and so the bounds are not the same. Their loops have no bounds.

## Main definitions

* `Parser.State.Shares`: Two states have their first tokens in common.
* `Parser.Agree`: Two runs come to the same.
* `Parser.Local`: A parser looks at nothing behind the token where it stops.

## Theorems

* `Parser.Local.bind`: Sequences of parsers.
* `Parser.Loop.agree`, `Parser.local_separated`: Lists of items.
* `Parser.local_mapWithin`: Maps.
* `Parser.local_wholeTag`: A whole input.
* `Tag.ofTokens_eq_of_agree`: What a run comes to is settled by the tokens up to the
  one where it stops, which is not behind the first one that ends the input.
-/

namespace Annotations

namespace Parser

namespace State

/-- Two states have their first tokens in common, at least one of them. Behind these
    there are some tokens on the one side and some on the other. -/
structure Shares (xs ys : List Token) (s t : State) : Prop where
  common : ∃ ts, ts ≠ [] ∧ s.remaining = ts ++ xs ∧ t.remaining = ts ++ ys
  depth_eq : t.depth = s.depth
  maxDepth_eq : t.maxDepth = s.maxDepth

/-- A token that does not end the input is the first of those that remain. -/
theorem remaining_eq_cons {s : State} (h : s.kind ≠ .endOfInput) :
    s.remaining = s.current :: s.next.remaining := by
  unfold remaining
  rw [rest_eq_cons h]
  rfl

theorem length_remaining_next_le (s : State) : s.next.remaining.length ≤ s.remaining.length := by
  rw [length_remaining, length_remaining, next, List.length_tail]
  omega

namespace Shares

variable {xs ys : List Token} {s t : State}

theorem current_eq (h : s.Shares xs ys t) : t.current = s.current := by
  rcases h.common with ⟨ts, hne, hs, ht⟩
  rcases s.exists_remaining_eq with ⟨after, hafter⟩
  rcases t.exists_remaining_eq with ⟨after', hafter'⟩
  rcases ts with _ | ⟨u, ts⟩
  · exact absurd rfl hne
  · rw [hafter, List.cons_append] at hs
    rw [hafter', List.cons_append] at ht
    rw [(List.cons.inj hs).1, (List.cons.inj ht).1]

theorem kind_eq (h : s.Shares xs ys t) : t.kind = s.kind :=
  congrArg Token.kind h.current_eq

theorem position_eq (h : s.Shares xs ys t) : t.position = s.position :=
  congrArg (fun u => u.span.start) h.current_eq

theorem room_eq (h : s.Shares xs ys t) : t.room = s.room := by
  rw [room, room, h.depth_eq, h.maxDepth_eq]

theorem unexpected_eq (h : s.Shares xs ys t) (expected : String) :
    t.unexpected expected = s.unexpected expected := by
  unfold unexpected
  rw [h.kind_eq, h.current_eq, h.position_eq]

/-- Past the current token, the states share what they shared before, if there is
    something left of it. -/
theorem next (h : s.Shares xs ys t) (hkind : s.kind ≠ .endOfInput)
    (hlt : xs.length < s.next.remaining.length) : s.next.Shares xs ys t.next where
  common := by
    rcases h.common with ⟨ts, hne, hs, ht⟩
    have hkind' : t.kind ≠ .endOfInput := by
      rw [h.kind_eq]
      exact hkind
    rcases ts with _ | ⟨u, ts⟩
    · exact absurd rfl hne
    · rw [remaining_eq_cons hkind, List.cons_append] at hs
      rw [remaining_eq_cons hkind', List.cons_append] at ht
      refine ⟨ts, ?_, (List.cons.inj hs).2, (List.cons.inj ht).2⟩
      intro hnil
      rw [(List.cons.inj hs).2, hnil, List.nil_append] at hlt
      omega
  depth_eq := h.depth_eq
  maxDepth_eq := h.maxDepth_eq

/-- Another count of open maps, the same on both sides. -/
theorem withDepth (h : s.Shares xs ys t) (depth : Nat) :
    State.Shares xs ys { s with depth := depth } { t with depth := depth } where
  common := h.common
  depth_eq := rfl
  maxDepth_eq := h.maxDepth_eq

end Shares

end State

open State

variable {α β : Type} {room : Nat} {s : State}

/-- Two runs come to the same, in states that share what is left of the common
    tokens. -/
inductive Agree (xs ys : List Token) :
    EStateM.Result Fault State α → EStateM.Result Fault State α → Prop where
  | ok {a : α} {s t : State} : s.Shares xs ys t → Agree xs ys (.ok a s) (.ok a t)
  | error {fault : Fault} {s t : State} :
      s.Shares xs ys t → Agree xs ys (.error fault s) (.error fault t)

/-- From the state on, the parser does not go back, and it looks at nothing behind
    the token where it stops: with other tokens there, it does the same. -/
structure Local (p : Parser α) (s : State) : Prop where
  shrinks : (finalState (p s)).remaining.length ≤ s.remaining.length
  agree : ∀ {xs ys : List Token} {t : State}, s.Shares xs ys t →
    xs.length < (finalState (p s)).remaining.length → Agree xs ys (p s) (p t)

/-- In a sequence, the first parser stops no further than the whole. -/
theorem Local.bind {p : Parser α} {f : α → Parser β} (hp : Local p s)
    (hf : ∀ a s', p s = .ok a s' → Local (f a) s') : Local (p >>= f) s := by
  have hshrinks := hp.shrinks
  cases hs : p s with
  | error fault s' =>
      rw [hs] at hshrinks
      constructor
      · rw [bind_error hs]
        exact hshrinks
      · intro xs ys t hshares hlt
        rw [bind_error hs] at hlt ⊢
        have hagree := hp.agree hshares (by rw [hs]; exact hlt)
        rw [hs] at hagree
        generalize ht : p t = result at hagree
        cases hagree with
        | error hshares' =>
            rw [bind_error ht]
            exact .error hshares'
  | ok a s' =>
      have hnext := hf a s' hs
      rw [hs] at hshrinks
      constructor
      · rw [bind_ok hs]
        exact Nat.le_trans hnext.shrinks hshrinks
      · intro xs ys t hshares hlt
        rw [bind_ok hs] at hlt ⊢
        have hagree := hp.agree hshares (by rw [hs]; exact Nat.lt_of_lt_of_le hlt hnext.shrinks)
        rw [hs] at hagree
        generalize ht : p t = result at hagree
        cases hagree with
        | ok hshares' =>
            rw [bind_ok ht]
            exact hnext.agree hshares' hlt

/-- A parser that does what a local one does, wherever the tokens are common. -/
theorem Local.congr {p q : Parser α} (hq : Local q s) (hs : p s = q s)
    (ht : ∀ xs ys t, s.Shares xs ys t → p t = q t) : Local p s where
  shrinks := by
    rw [hs]
    exact hq.shrinks
  agree := by
    intro xs ys t hshares hlt
    rw [hs] at hlt ⊢
    rw [ht xs ys t hshares]
    exact hq.agree hshares hlt

theorem local_pure (a : α) (s : State) : Local (pure a) s where
  shrinks := Nat.le_refl _
  agree := fun hshares _ => .ok hshares

/-- What can be told from the common tokens. -/
theorem local_look {view : State → Except Fault α}
    (h : ∀ xs ys t, s.Shares xs ys t → view t = view s) : Local (look view) s := by
  constructor
  · unfold look
    split <;> exact Nat.le_refl _
  · intro xs ys t hshares _
    unfold look
    rw [h xs ys t hshares]
    split
    · exact .ok hshares
    · exact .error hshares

theorem local_position (s : State) : Local position s := by
  show Local (look fun s => .ok s.position) s
  exact local_look fun _ _ _ hshares => by rw [hshares.position_eq]

theorem local_unexpected (expected : String) (s : State) :
    Local (unexpected (α := α) expected) s := by
  show Local (look fun s => .error (s.unexpected expected)) s
  exact local_look fun _ _ _ hshares => by rw [hshares.unexpected_eq]

theorem local_tooDeep (s : State) : Local (tooDeep (α := α)) s := by
  show Local (look fun s => .error ⟨.nestingTooDeep s.maxDepth, s.position⟩) s
  exact local_look fun _ _ _ hshares => by rw [hshares.maxDepth_eq, hshares.position_eq]

theorem local_refuseIf {condition : State → Bool} {cause : State → Fault.Cause}
    (hcondition : ∀ xs ys t, s.Shares xs ys t → condition t = condition s)
    (hcause : ∀ xs ys t, s.Shares xs ys t → cause t = cause s) :
    Local (refuseIf condition cause) s := by
  constructor
  · unfold refuseIf
    split <;> exact Nat.le_refl _
  · intro xs ys t hshares _
    unfold refuseIf
    rw [hcondition xs ys t hshares, hcause xs ys t hshares, hshares.position_eq]
    split
    · exact .error hshares
    · exact .ok hshares

theorem local_adjacent (hash opening : Token) (s : State) : Local (adjacent hash opening) s := by
  by_cases hspan : opening.span.start = hash.span.stop
  · have hok : ∀ t : State, adjacent hash opening t = (pure () : Parser Unit) t := by
      intro t
      rw [adjacent, if_pos hspan]
      rfl
    exact (local_pure () s).congr (hok s) fun _ _ t _ => hok t
  · have herror : ∀ t : State, adjacent hash opening t =
        look (fun _ => .error ⟨.detachedHash, hash.span.stop⟩) t := by
      intro t
      rw [adjacent, if_neg hspan]
      rfl
    exact (local_look fun _ _ _ _ => rfl).congr (herror s) fun _ _ t _ => herror t

theorem local_countOpened (s : State) : Local countOpened s where
  shrinks := Nat.le_refl _
  agree := by
    intro xs ys t hshares _
    unfold countOpened
    rw [hshares.depth_eq]
    exact .ok (hshares.withDepth _)

theorem local_leave (s : State) : Local leave s where
  shrinks := Nat.le_refl _
  agree := by
    intro xs ys t hshares _
    unfold leave
    rw [hshares.depth_eq]
    exact .ok (hshares.withDepth _)

theorem local_advance (hkind : s.kind ≠ .endOfInput) : Local advance s where
  shrinks := length_remaining_next_le s
  agree := by
    intro xs ys t hshares hlt
    unfold advance
    rw [hshares.current_eq]
    exact .ok (hshares.next hkind hlt)

/-- A token that is expected is passed or left where it is. -/
theorem local_expect {kind : Token.Kind} (hend : kind ≠ .endOfInput) (s : State) :
    Local (expect kind) s := by
  by_cases hkind : s.kind = kind
  · have hadvance : Local advance s := local_advance (by rw [hkind]; exact hend)
    exact hadvance.congr (expect_of_kind hkind)
      fun _ _ t hshares => expect_of_kind (hshares.kind_eq.trans hkind)
  · refine (local_unexpected kind.describe s).congr (expect_of_ne hkind) fun _ _ t hshares => ?_
    exact expect_of_ne (by rw [hshares.kind_eq]; exact hkind)

theorem local_onlyAt {opening : Token.Kind} {items : Parser (List α)} (hitems : Local items s) :
    Local (onlyAt opening items) s := by
  by_cases hkind : s.kind = opening
  · refine hitems.congr (by rw [onlyAt, if_pos hkind]) fun _ _ t hshares => ?_
    rw [onlyAt, hshares.kind_eq, if_pos hkind]
  · refine (local_pure [] s).congr (by rw [onlyAt, if_neg hkind]; rfl) fun _ _ t hshares => ?_
    rw [onlyAt, hshares.kind_eq, if_neg hkind]
    rfl

theorem local_unlessAt {closing : Token.Kind} {items : Parser (List α)} (hitems : Local items s) :
    Local (unlessAt closing items) s := by
  by_cases hkind : s.kind = closing
  · refine (local_pure [] s).congr (by rw [unlessAt, if_pos hkind]; rfl) fun _ _ t hshares => ?_
    rw [unlessAt, hshares.kind_eq, if_pos hkind]
    rfl
  · refine hitems.congr (by rw [unlessAt, if_neg hkind]) fun _ _ t hshares => ?_
    rw [unlessAt, hshares.kind_eq, if_neg hkind]

theorem finalState_prepend (a : α) (r : EStateM.Result Fault State (List α)) :
    finalState (prepend a r) = finalState r := by
  cases r <;> rfl

theorem Agree.prepend {xs ys : List Token} {r r' : EStateM.Result Fault State (List α)}
    (h : Agree xs ys r r') (a : α) : Agree xs ys (prepend a r) (prepend a r') := by
  cases h with
  | ok hshares => exact .ok hshares
  | error hshares => exact .error hshares

section Separated

variable {item : Parser α}

/-- A loop does not go back. -/
theorem Loop.shrinks (hitem : ∀ s, s.room = room → Local item s) (htravels : Travels room item)
    (hroom : s.room = room) {r : EStateM.Result Fault State (List α)} (h : Loop item s r) :
    (finalState r).remaining.length ≤ s.remaining.length := by
  induction h with
  | @failed s t fault hs =>
      have hshrinks := (hitem s hroom).shrinks
      rw [hs] at hshrinks
      exact hshrinks
  | @last s t a hs _ =>
      have hshrinks := (hitem s hroom).shrinks
      rw [hs] at hshrinks
      exact hshrinks
  | @more s t a r hs _ _ ih =>
      have hshrinks := (hitem s hroom).shrinks
      have hroom' : t.next.room = room := ((htravels s hroom).room_eq hs).trans hroom
      rw [hs] at hshrinks
      rw [finalState_prepend]
      exact Nat.le_trans (ih hroom') (Nat.le_trans (length_remaining_next_le t) hshrinks)

/-- Two loops from states with common tokens, of which the first does not leave
    these. -/
theorem Loop.agree (hitem : ∀ s, s.room = room → Local item s) (htravels : Travels room item)
    (hroom : s.room = room) {xs ys : List Token} {t : State}
    {r r' : EStateM.Result Fault State (List α)} (h : Loop item s r) (h' : Loop item t r')
    (hshares : s.Shares xs ys t) (hlt : xs.length < (finalState r).remaining.length) :
    Agree xs ys r r' := by
  induction h generalizing t r' with
  | @failed s s' fault hs =>
      have hagree := (hitem s hroom).agree hshares (by rw [hs]; exact hlt)
      rw [hs] at hagree
      generalize ht : item t = result at hagree
      cases hagree with
      | error hshares' =>
          rw [h'.unique (.failed ht)]
          exact .error hshares'
  | @last s s' a hs hkind =>
      have hagree := (hitem s hroom).agree hshares (by rw [hs]; exact hlt)
      rw [hs] at hagree
      generalize ht : item t = result at hagree
      cases hagree with
      | ok hshares' =>
          rw [h'.unique (.last ht (by rw [hshares'.kind_eq]; exact hkind))]
          exact .ok hshares'
  | @more s s' a r hs hcomma hrest ih =>
      have hroom' : s'.next.room = room := ((htravels s hroom).room_eq hs).trans hroom
      rw [finalState_prepend] at hlt
      -- What comes after the comma stops behind it, so the comma is common.
      have hltNext : xs.length < s'.next.remaining.length :=
        Nat.lt_of_lt_of_le hlt (hrest.shrinks hitem htravels hroom')
      have hltItem : xs.length < (finalState (item s)).remaining.length := by
        rw [hs]
        exact Nat.lt_of_lt_of_le hltNext (length_remaining_next_le s')
      have hagree := (hitem s hroom).agree hshares hltItem
      rw [hs] at hagree
      generalize ht : item t = result at hagree
      cases hagree with
      | @ok _ _ t' hshares' =>
          have hsharesNext := hshares'.next (by rw [hcomma]; decide) hltNext
          have hrest' : Loop item t'.next (separated item t'.next) :=
            loop_separated htravels (hsharesNext.room_eq.trans hroom')
          rw [h'.unique (.more ht (hshares'.kind_eq.trans hcomma) hrest')]
          exact (ih hroom' hrest' hsharesNext hlt).prepend a

theorem local_separated (hitem : ∀ s, s.room = room → Local item s)
    (htravels : Travels room item) (hroom : s.room = room) : Local (separated item) s where
  shrinks := (loop_separated htravels hroom).shrinks hitem htravels hroom
  agree := fun hshares hlt =>
    (loop_separated htravels hroom).agree hitem htravels hroom
      (loop_separated htravels (hshares.room_eq.trans hroom)) hshares hlt

end Separated

theorem State.Shares.literal_eq {xs ys : List Token} {t : State} (h : s.Shares xs ys t) :
    t.literal = s.literal := by
  unfold State.literal
  rw [h.current_eq, h.position_eq, h.unexpected_eq]

theorem local_literal (s : State) : Local literal s := by
  refine (local_look fun _ _ _ hshares => hshares.literal_eq).bind fun l s' hs => ?_
  -- A token that reads as a scalar does not end the input.
  have hkind : s'.kind ≠ .endOfInput := by
    intro hend
    unfold look at hs
    split at hs
    · next hl =>
        cases hs
        unfold State.kind at hend
        simp [State.literal, hend] at hl
    · cases hs
  exact (local_advance hkind).bind fun _ s'' _ => local_pure l s''

theorem local_element (s : State) : Local element s :=
  (local_position s).bind fun start s' _ =>
    (local_literal s').bind fun l s'' _ => local_pure (l, start) s''

theorem local_list (s : State) : Local list s :=
  (local_expect (by decide) s).bind fun _ s₁ _ =>
    (local_separated (fun t _ => local_element t) travels_element rfl).bind fun _ s₂ _ =>
      (local_expect (by decide) s₂).bind fun _ _ _ => local_look fun _ _ _ _ => rfl

theorem local_literalValue (s : State) : Local literalValue s :=
  (local_literal s).bind fun l s' _ => local_pure l.toValue s'

/-- The kind of the current token decides which rule reads a value. -/
theorem local_valueWith {map : Parser Value} (hmap : Local map s) : Local (valueWith map) s := by
  have hrule : ∀ {p : Parser Value}, Local p s →
      (∀ t : State, t.kind = s.kind → valueWith map t = p t) → Local (valueWith map) s :=
    fun hp h => hp.congr (h s rfl) fun _ _ t hshares => h t hshares.kind_eq
  unfold valueWith at hrule ⊢
  cases hkind : s.kind with
  | string | integer | float | trueWord | falseWord =>
      exact hrule (local_literalValue s) fun t ht => by rw [ht, hkind]
  | openBracket => exact hrule (local_list s) fun t ht => by rw [ht, hkind]
  | openCurly => exact hrule hmap fun t ht => by rw [ht, hkind]
  | _ => exact hrule (local_unexpected "a value" s) fun t ht => by rw [ht, hkind]

theorem local_entryWith {value : Parser Value} (hvalue : ∀ t, t.room = room → Local value t)
    (hroom : s.room = room) : Local (entryWith value) s := by
  refine (local_expect (by decide) s).bind fun name s₁ h₁ => ?_
  refine (local_expect (by decide) s₁).bind fun _ s₂ h₂ => ?_
  have hroom' : s₂.room = room := by
    rw [expect_eq_ok h₂, expect_eq_ok h₁]
    exact hroom
  exact (hvalue s₂ hroom').bind fun v s₃ _ => local_pure (⟨name.text, v⟩ : Entry) s₃

/-- A map looks no further than its closing brace. Inside of it there is less room. -/
theorem local_mapWithin (room : Nat) : ∀ s : State, s.room = room → Local (mapWithin room) s := by
  induction room with
  | zero => exact fun s _ => local_tooDeep s
  | succ room ih =>
      intro s hroom
      have hitem : ∀ t : State, t.room = room →
          Local (entryWith (valueWith (mapWithin room))) t :=
        fun t ht => local_entryWith (fun u hu => local_valueWith (ih u hu)) ht
      have htravels : Travels room (entryWith (valueWith (mapWithin room))) :=
        travels_entryWith (travels_valueWith (travelled_mapWithin room))
      unfold mapWithin
      refine (local_countOpened s).bind fun _ s₁ h₁ => ?_
      refine (local_expect (by decide) s₁).bind fun _ s₂ h₂ => ?_
      have hroom' : s₂.room = room := by
        cases h₁
        rw [expect_eq_ok h₂]
        unfold State.room at hroom ⊢
        show s.maxDepth - (s.depth + 1) = room
        omega
      refine (local_unlessAt (local_separated hitem htravels hroom')).bind fun es s₃ _ => ?_
      refine (local_expect (by decide) s₃).bind fun _ s₄ _ => ?_
      exact (local_leave s₄).bind fun _ s₅ _ => local_pure (Value.map es) s₅

/-- States with common tokens have the same room, so both read a map within it. -/
theorem local_map (s : State) : Local map s :=
  (local_mapWithin s.room s rfl).congr rfl fun _ _ t hshares => by rw [map, hshares.room_eq]

theorem local_entry (s : State) : Local entry s :=
  local_entryWith (fun t _ => local_valueWith (local_map t)) rfl

theorem local_attributes (s : State) : Local attributes s := by
  refine (local_expect (by decide) s).bind fun _ s₁ _ => ?_
  refine Local.bind ?_ fun _ s₂ _ => ?_
  · refine local_refuseIf (fun _ _ _ hshares => ?_) (fun _ _ _ _ => rfl)
    rw [hshares.kind_eq]
  refine (local_separated (fun t _ => local_entry t) travels_entry rfl).bind fun es s₃ _ => ?_
  exact (local_expect (by decide) s₃).bind fun _ s₄ _ => local_pure es s₄

theorem local_tag (s : State) : Local tag s := by
  refine (local_expect (by decide) s).bind fun hash s₁ _ => ?_
  refine (local_expect (by decide) s₁).bind fun opening s₂ _ => ?_
  refine (local_adjacent hash opening s₂).bind fun _ s₃ _ => ?_
  refine (local_expect (by decide) s₃).bind fun identity s₄ _ => ?_
  refine (local_onlyAt (local_attributes s₄)).bind fun es s₅ _ => ?_
  exact (local_expect (by decide) s₅).bind fun _ s₆ _ =>
    local_pure (⟨identity.text, es⟩ : Tag) s₆

/-- What follows a tag is told from the current token, which is not passed. -/
theorem local_wholeTag (s : State) : Local wholeTag s := by
  refine (local_tag s).bind fun result s₁ _ => ?_
  refine Local.bind ?_ fun _ s₂ _ => local_pure result s₂
  refine local_refuseIf (fun _ _ _ hshares => ?_) (fun _ _ _ hshares => ?_)
  · rw [hshares.kind_eq]
  · rw [hshares.current_eq]

/-- A run passes tokens that do not end the input, up to where it stops. -/
theorem Travelled.exists_passed {r : EStateM.Result Fault State α} (h : Travelled s r) :
    ∃ used, s.Passed used (finalState r) ∧ ∀ t ∈ used, t.kind ≠ .endOfInput := by
  cases h with
  | ok hmoves _ => exact ⟨_, ⟨hmoves.rest_eq, hmoves.stop_eq⟩, hmoves.inside⟩
  | error hmoves => exact ⟨_, ⟨hmoves.rest_eq, hmoves.stop_eq⟩, hmoves.inside⟩

/-- Runs that agree give the same tag or the same fault. -/
theorem Agree.ofTokens_eq {xs ys tokens tokens' : List Token} {label label' : String}
    {maxDepth : Nat} (h : Agree xs ys (wholeTag (.ofTokens tokens label maxDepth))
      (wholeTag (.ofTokens tokens' label' maxDepth))) :
    Tag.ofTokens tokens' label' maxDepth = Tag.ofTokens tokens label maxDepth := by
  unfold Tag.ofTokens
  generalize wholeTag (.ofTokens tokens label maxDepth) = r at h ⊢
  generalize wholeTag (.ofTokens tokens' label' maxDepth) = r' at h ⊢
  cases h <;> rfl

/-- At the start of two inputs that are the same up to an index, the tokens up to
    there are common. -/
theorem State.shares_ofTokens {tokens tokens' : List Token} {label label' : String} {n : Nat}
    (h : ∀ i, i ≤ n → (Token.completed label' tokens')[i]? = (Token.completed label tokens)[i]?)
    (maxDepth : Nat) :
    (ofTokens tokens label maxDepth).Shares ((Token.completed label tokens).drop (n + 1))
      ((Token.completed label' tokens').drop (n + 1)) (ofTokens tokens' label' maxDepth) where
  common := by
    have hstart := remaining_ofTokens tokens label maxDepth
    have hstart' := remaining_ofTokens tokens' label' maxDepth
    have htake : (Token.completed label' tokens').take (n + 1) =
        (Token.completed label tokens).take (n + 1) := by
      apply List.ext_getElem?
      intro i
      rw [List.getElem?_take, List.getElem?_take]
      by_cases hi : i < n + 1
      · rw [if_pos hi, if_pos hi, h i (by omega)]
      · rw [if_neg hi, if_neg hi]
    refine ⟨(Token.completed label tokens).take (n + 1), ?_, ?_, ?_⟩
    · rcases (ofTokens tokens label maxDepth).exists_remaining_eq with ⟨after, hafter⟩
      rw [← hstart, hafter]
      simp
    · rw [hstart, List.take_append_drop]
    · rw [hstart', ← htake, List.take_append_drop]
  depth_eq := by rw [ofTokens_depth, ofTokens_depth]
  maxDepth_eq := by rw [ofTokens_maxDepth, ofTokens_maxDepth]

end Parser

/-- Where reading stops, and that nothing behind it matters. The token where it stops
    is not behind the first one that ends the input. Any other tokens that are the
    same up to there, under whatever label, give the same tag or the same fault. -/
theorem Tag.ofTokens_eq_of_agree (tokens : List Token) (label : String) (maxDepth : Nat) :
    let whole := Token.completed label tokens
    let stopped := Parser.finalState (Parser.wholeTag (.ofTokens tokens label maxDepth))
    let firstEnd := whole.findIdx (·.kind = .endOfInput)
    whole.drop (stopped.cursor whole) = stopped.remaining ∧
    stopped.cursor whole ≤ firstEnd ∧ firstEnd < whole.length ∧
    (∀ (tokens' : List Token) (label' : String),
      (∀ i, i ≤ stopped.cursor whole → (Token.completed label' tokens')[i]? = whole[i]?) →
      Tag.ofTokens tokens' label' maxDepth = Tag.ofTokens tokens label maxDepth) ∧
    ∀ (tokens' : List Token) (label' : String),
      (∀ i, i ≤ firstEnd → (Token.completed label' tokens')[i]? = whole[i]?) →
      Tag.ofTokens tokens' label' maxDepth = Tag.ofTokens tokens label maxDepth := by
  intro whole stopped firstEnd
  set start : Parser.State := .ofTokens tokens label maxDepth
  have hstart : start.remaining = whole := Parser.State.remaining_ofTokens tokens label maxDepth
  rcases (Parser.travels_wholeTag start rfl).exists_passed with ⟨used, hpassed, hinside⟩
  have hsplit : whole = used ++ stopped.remaining := hstart ▸ hpassed.remaining_eq
  have hsuffix : stopped.remaining <:+ whole := ⟨used, hsplit.symm⟩
  have hdrop := Parser.State.drop_cursor hsuffix
  have hlt := Parser.State.cursor_lt hsuffix
  have hcursor : stopped.cursor whole = used.length := by
    unfold Parser.State.cursor
    rw [hsplit, List.length_append]
    omega
  have hbound : stopped.cursor whole ≤ firstEnd := by
    have hpast : used.findIdx (·.kind = .endOfInput) = used.length := by
      rw [List.findIdx_eq_length]
      intro t ht
      simp [hinside t ht]
    show stopped.cursor whole ≤ whole.findIdx _
    rw [hcursor, hsplit, List.findIdx_append, hpast, if_neg (Nat.lt_irrefl _)]
    omega
  have hend : firstEnd < whole.length := by
    refine List.findIdx_lt_length_of_exists ⟨stopped.stop, ?_, by simp [stopped.stop_kind]⟩
    exact List.mem_of_getLast? (Parser.State.getLast?_eq_stop hsuffix)
  have hsame : ∀ (tokens' : List Token) (label' : String),
      (∀ i, i ≤ stopped.cursor whole → (Token.completed label' tokens')[i]? = whole[i]?) →
      Tag.ofTokens tokens' label' maxDepth = Tag.ofTokens tokens label maxDepth := by
    intro tokens' label' hagree
    refine ((Parser.local_wholeTag start).agree
      (Parser.State.shares_ofTokens hagree maxDepth) ?_).ofTokens_eq
    -- The token where reading stops is the last of the common ones, and is left.
    show (whole.drop (stopped.cursor whole + 1)).length < stopped.remaining.length
    rw [← hdrop, List.length_drop, List.length_drop]
    omega
  exact ⟨hdrop, hbound, hend, hsame, fun tokens' label' hagree =>
    hsame tokens' label' fun i hi => hagree i (Nat.le_trans hi hbound)⟩

/-- A list of mixed elements is refused behind its closing bracket, with the fault at
    one of the elements. What follows the token behind the bracket does not matter:
    the rest of the tag can be missing, and the input can go on after it has ended. -/
theorem Tag.ofTokens_eq_of_agree_mixed :
    let read : List Token :=
      [⟨.hash, "#", .ofLength "ref" 0 1⟩, ⟨.openBracket, "[", .ofLength "ref" 1 1⟩,
        ⟨.identifier, "a", .ofLength "ref" 2 1⟩, ⟨.openParen, "(", .ofLength "ref" 3 1⟩,
        ⟨.identifier, "x", .ofLength "ref" 4 1⟩, ⟨.assignment, "=", .ofLength "ref" 5 1⟩,
        ⟨.openBracket, "[", .ofLength "ref" 6 1⟩, ⟨.trueWord, "true", .ofLength "ref" 7 4⟩,
        ⟨.comma, ",", .ofLength "ref" 11 1⟩, ⟨.string, "s", .ofLength "ref" 12 3⟩,
        ⟨.closeBracket, "]", .ofLength "ref" 15 1⟩, ⟨.closeParen, ")", .ofLength "ref" 16 1⟩]
    let tokens := read ++ [⟨.closeBracket, "]", .ofLength "ref" 17 1⟩]
    let tokens' := read ++ [.endOfInput (.ofOffset "ref" 17), ⟨.comma, ",", .ofLength "ref" 18 1⟩]
    Tag.ofTokens tokens "ref" 4 =
      .error ⟨.mixedList 1 "Bool" "String", .ofOffset "ref" 12⟩ ∧
    Tag.ofTokens tokens' "other" 4 = Tag.ofTokens tokens "ref" 4 := by
  intro read tokens tokens'
  refine ⟨rfl, (Tag.ofTokens_eq_of_agree tokens "ref" 4).2.2.2.1 tokens' "other" ?_⟩
  have hstopped : (Parser.finalState (Parser.wholeTag (.ofTokens tokens "ref" 4))).cursor
      (Token.completed "ref" tokens) = 11 := rfl
  rw [hstopped]
  decide

end Annotations
