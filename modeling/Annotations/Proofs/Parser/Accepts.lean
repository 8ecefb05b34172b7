import Annotations.Parser.State
import Annotations.Proofs.Parser.Grammar

/-!
# What a Parser Accepts

A parser that succeeds takes some tokens off the front of what is left and
changes nothing else. `Accepts` says which tokens: a parser accepts a relation
between lists of tokens and results if it succeeds with a result exactly when it
takes tokens that the relation gives this result for. How much room there is for
further maps is fixed, since what the rules for values accept depends on it.
Both directions are in one statement, so a rule of the grammar needs one lemma,
and a sequence of parsers accepts the concatenation of what its parts accept.

Two parsers look at the token behind what they take. A list of items goes on if
there is a comma, and an optional part is left out unless it starts there. Their
success can only be told when something is known about that token, and for that
there is `AcceptsBefore`: it is about the case that a token of a given kind
follows. Since every list is closed by such a token, the condition is met where
it is needed, and `AcceptsBefore.bind_expect` leads back to `Accepts`.

## Main definitions

* `Parser.State.Took`: A state that is left after taking tokens.
* `Parser.Accepts`: Success is the same as taking tokens of a relation.
* `Parser.AcceptsBefore`: The same in front of a token of some kind.

## Theorems

* `Parser.bind_eq_ok_iff`: A sequence succeeds if its parts do.
* `Parser.State.took_append_iff`: Tokens can be taken in two steps.
* `Parser.Accepts.bind`: A sequence accepts a concatenation.
* `Parser.accepts_expect`: An expected token is taken.
* `Parser.acceptsBefore_separated`: A list of items is taken as a whole.
* `Parser.acceptsBefore_unlessAt`, `Parser.acceptsBefore_onlyAt`: Parts that may
  be left out.
* `Parser.AcceptsBefore.bind_expect`: What comes before an expected token.
-/

namespace Annotations

open Grammar

namespace Parser

namespace State

/-- The second state is left after taking the tokens, none of which ends the
    input, and is otherwise the same. -/
structure Took (s : State) (used : List Token) (s' : State) : Prop where
  rest_eq : s.rest = used ++ s'.rest
  state_eq : s' = { s with rest := s'.rest }
  inside : ∀ t ∈ used, t.kind ≠ .endOfInput

theorem took_nil_iff {s s' : State} : s.Took [] s' ↔ s' = s := by
  constructor
  · intro h
    have hrest : s'.rest = s.rest := h.rest_eq.symm
    rw [h.state_eq, hrest]
  · rintro rfl
    exact ⟨rfl, rfl, fun t ht => absurd ht List.not_mem_nil⟩

/-- Tokens can be taken in two steps. -/
theorem took_append_iff {s s' : State} {a b : List Token} :
    s.Took (a ++ b) s' ↔ ∃ t, s.Took a t ∧ t.Took b s' := by
  constructor
  · rintro ⟨hrest, hstate, hinside⟩
    rw [List.forall_mem_append] at hinside
    rw [List.append_assoc] at hrest
    refine ⟨{ s with rest := b ++ s'.rest }, ⟨hrest, rfl, hinside.1⟩, ⟨rfl, ?_, hinside.2⟩⟩
    exact hstate
  · rintro ⟨t, ⟨hrest, hstate, hinside⟩, ⟨hrest', hstate', hinside'⟩⟩
    refine ⟨?_, ?_, List.forall_mem_append.mpr ⟨hinside, hinside'⟩⟩
    · rw [hrest, hrest', List.append_assoc]
    · rw [hstate', hstate]

/-- One token is taken by moving past the current one. -/
theorem took_singleton_iff {s s' : State} {t : Token} :
    s.Took [t] s' ↔ s.kind ≠ .endOfInput ∧ t = s.current ∧ s' = s.next := by
  constructor
  · rintro ⟨hrest, hstate, hinside⟩
    have hcurrent : s.current = t := by rw [current, hrest]; rfl
    refine ⟨?_, hcurrent.symm, ?_⟩
    · rw [kind, hcurrent]
      exact hinside t List.mem_cons_self
    · rw [hstate, next, hrest]
      rfl
  · rintro ⟨hkind, rfl, rfl⟩
    have hne := rest_ne_nil hkind
    rcases hrest : s.rest with _ | ⟨t, more⟩
    · exact absurd hrest hne
    · have hcurrent : s.current = t := by rw [current, hrest]; rfl
      refine ⟨by rw [hcurrent, next, hrest]; rfl, rfl, fun u hu => ?_⟩
      rw [List.mem_singleton.mp hu]
      exact hkind

/-- The first token taken is the current one. -/
theorem Took.current_eq {s s' : State} {t : Token} {ts : List Token} (h : s.Took (t :: ts) s') :
    s.current = t := by
  rw [current, h.rest_eq]
  rfl

theorem Took.kind_eq {s s' : State} {t : Token} {ts : List Token} (h : s.Took (t :: ts) s') :
    s.kind = t.kind := by
  rw [kind, h.current_eq]

/-- Taking tokens leaves the same room for further maps. -/
theorem Took.room_eq {s s' : State} {used : List Token} (h : s.Took used s') :
    s'.room = s.room := by
  rw [h.state_eq]
  rfl

end State

open State

variable {α β : Type} {room : Nat}

/-- A sequence succeeds if its first parser does and the second one does after
    it. -/
theorem bind_eq_ok_iff {p : Parser α} {f : α → Parser β} {s s' : State} {b : β} :
    (p >>= f) s = .ok b s' ↔ ∃ a t, p s = .ok a t ∧ f a t = .ok b s' := by
  cases hp : p s with
  | error fault t =>
      rw [bind_error hp]
      constructor
      · intro h
        cases h
      · rintro ⟨a, t, h, -⟩
        cases h
  | ok a t =>
      rw [bind_ok hp]
      constructor
      · intro h
        exact ⟨a, t, rfl, h⟩
      · rintro ⟨a', t', h, h'⟩
        cases h
        exact h'

/-- In the given room for further maps, the parser succeeds with a result exactly
    if it takes tokens that the relation gives this result for. -/
def Accepts (room : Nat) (p : Parser α) (R : List Token → α → Prop) : Prop :=
  ∀ s a s', s.room = room → (p s = .ok a s' ↔ ∃ used, s.Took used s' ∧ R used a)

/-- The same in front of a token of the kind. -/
def AcceptsBefore (kind : Token.Kind) (room : Nat) (p : Parser α) (R : List Token → α → Prop) :
    Prop :=
  ∀ s a s', s.room = room → s'.kind = kind →
    (p s = .ok a s' ↔ ∃ used, s.Took used s' ∧ R used a)

theorem Accepts.congr {p : Parser α} {R R' : List Token → α → Prop} (h : Accepts room p R)
    (hR : ∀ ts a, R ts a ↔ R' ts a) : Accepts room p R' := by
  intro s a s' hroom
  rw [h s a s' hroom]
  simp only [hR]

theorem accepts_pure (a : α) : Accepts room (pure a) fun ts b => ts = [] ∧ b = a := by
  rintro s b s' -
  constructor
  · intro h
    cases h
    exact ⟨[], took_nil_iff.mpr rfl, rfl, rfl⟩
  · rintro ⟨used, htook, rfl, rfl⟩
    rw [took_nil_iff.mp htook]
    rfl

/-- A sequence accepts the tokens of its first parser followed by those of the
    second one. -/
theorem Accepts.bind {p : Parser α} {f : α → Parser β} {R : List Token → α → Prop}
    {S : α → List Token → β → Prop} (hp : Accepts room p R) (hf : ∀ a, Accepts room (f a) (S a)) :
    Accepts room (p >>= f) fun ts b => ∃ a us vs, ts = us ++ vs ∧ R us a ∧ S a vs b := by
  intro s b s' hroom
  rw [bind_eq_ok_iff]
  constructor
  · rintro ⟨a, t, hpa, hfb⟩
    rcases (hp s a t hroom).mp hpa with ⟨us, hus, hR⟩
    rcases (hf a t b s' (hus.room_eq.trans hroom)).mp hfb with ⟨vs, hvs, hS⟩
    exact ⟨us ++ vs, took_append_iff.mpr ⟨t, hus, hvs⟩, a, us, vs, rfl, hR, hS⟩
  · rintro ⟨used, htook, a, us, vs, rfl, hR, hS⟩
    rcases took_append_iff.mp htook with ⟨t, hus, hvs⟩
    exact ⟨a, t, (hp s a t hroom).mpr ⟨us, hus, hR⟩,
      (hf a t b s' (hus.room_eq.trans hroom)).mpr ⟨vs, hvs, hS⟩⟩

/-- The result of a parser seen through a function. -/
theorem Accepts.map {p : Parser α} {R : List Token → α → Prop} (hp : Accepts room p R)
    (f : α → β) : Accepts room (p >>= fun a => pure (f a)) fun ts b => ∃ a, R ts a ∧ b = f a := by
  refine (hp.bind fun a => accepts_pure (f a)).congr (fun ts b => ?_)
  constructor
  · rintro ⟨a, us, vs, rfl, hR, rfl, rfl⟩
    rw [List.append_nil]
    exact ⟨a, hR, rfl⟩
  · rintro ⟨a, hR, rfl⟩
    exact ⟨a, ts, [], (List.append_nil ts).symm, hR, rfl, rfl⟩

/-- An expected token is taken. -/
theorem accepts_expect {kind : Token.Kind} (hkind : kind ≠ .endOfInput) :
    Accepts room (expect kind) fun ts t => ts = [t] ∧ t.kind = kind := by
  rintro s t s' -
  rw [expect, expectOr]
  by_cases hs : s.kind = kind
  · rw [if_pos hs, advance]
    constructor
    · intro h
      cases h
      exact ⟨[s.current], took_singleton_iff.mpr ⟨hs ▸ hkind, rfl, rfl⟩, rfl, hs⟩
    · rintro ⟨used, htook, rfl, -⟩
      rcases took_singleton_iff.mp htook with ⟨-, rfl, rfl⟩
      rfl
  · rw [if_neg hs]
    constructor
    · intro h
      cases h
    · rintro ⟨used, htook, rfl, ht⟩
      exact absurd (htook.kind_eq.trans ht) hs

/-- A token and what comes after it. -/
theorem accepts_expect_bind {kind : Token.Kind} (hkind : kind ≠ .endOfInput)
    {f : Token → Parser β} {S : Token → List Token → β → Prop}
    (hf : ∀ t, Accepts room (f t) (S t)) :
    Accepts room (expect kind >>= f) fun ts b =>
      ∃ t vs, ts = t :: vs ∧ t.kind = kind ∧ S t vs b := by
  refine ((accepts_expect hkind).bind hf).congr (fun ts b => ?_)
  constructor
  · rintro ⟨t, us, vs, rfl, ⟨rfl, ht⟩, hS⟩
    exact ⟨t, vs, rfl, ht, hS⟩
  · rintro ⟨t, vs, rfl, ht, hS⟩
    exact ⟨t, [t], vs, rfl, ⟨rfl, ht⟩, hS⟩

/-- What comes before an expected token, that token, and what comes after it. -/
theorem AcceptsBefore.bind_expect {kind : Token.Kind} (hkind : kind ≠ .endOfInput) {p : Parser α}
    {f : α → Token → Parser β} {R : List Token → α → Prop} {S : α → List Token → β → Prop}
    (hp : AcceptsBefore kind room p R) (hf : ∀ a t, Accepts room (f a t) (S a)) :
    Accepts room (p >>= fun a => expect kind >>= f a) fun ts b =>
      ∃ a us t vs, ts = us ++ t :: vs ∧ R us a ∧ t.kind = kind ∧ S a vs b := by
  intro s b s' hroom
  rw [bind_eq_ok_iff]
  constructor
  · rintro ⟨a, u, hpa, hrest⟩
    -- That the token is there comes first, since only then the tokens before it are known.
    rcases bind_eq_ok_iff.mp hrest with ⟨t, w, ht, -⟩
    rcases (accepts_expect hkind u t w rfl).mp ht with ⟨_, htook, rfl, hkind_eq⟩
    rcases (hp s a u hroom (htook.kind_eq.trans hkind_eq)).mp hpa with ⟨us, hus, hR⟩
    rcases (accepts_expect_bind hkind (hf a) u b s' (hus.room_eq.trans hroom)).mp hrest with
      ⟨used, htook, t, vs, rfl, ht, hS⟩
    exact ⟨us ++ t :: vs, took_append_iff.mpr ⟨u, hus, htook⟩, a, us, t, vs, rfl, hR, ht, hS⟩
  · rintro ⟨used, htook, a, us, t, vs, rfl, hR, ht, hS⟩
    rcases took_append_iff.mp htook with ⟨u, hus, hvs⟩
    refine ⟨a, u, (hp s a u hroom (hvs.kind_eq.trans ht)).mpr ⟨us, hus, hR⟩, ?_⟩
    exact (accepts_expect_bind hkind (hf a) u b s' (hus.room_eq.trans hroom)).mpr
      ⟨_, hvs, t, vs, rfl, ht, hS⟩

/-- A list of items, up to a bound that the tokens left do not exceed. The list
    ends only where there is no comma. -/
theorem separatedUpTo_eq_ok_iff {item : Parser α} {R : List Token → α → Prop}
    (hitem : Accepts room item R) (hne : ∀ ts a, R ts a → ts ≠ []) :
    ∀ (n : Nat) (s : State), s.room = room → s.rest.length ≤ n → ∀ (as : List α) (s' : State),
      separatedUpTo item n s = .ok as s' ↔
        ∃ used, s.Took used s' ∧ Separated R used as ∧ s'.kind ≠ .comma := by
  intro n
  induction n with
  | zero =>
      intro s hroom hn as s'
      have hrest : s.rest = [] := List.length_eq_zero_iff.mp (Nat.le_zero.mp hn)
      -- Nothing is left, and an item takes at least one token.
      have hnone : ∀ used t, s.Took used t → used = [] := by
        intro used t htook
        have := htook.rest_eq
        rw [hrest] at this
        exact (List.append_eq_nil_iff.mp this.symm).1
      constructor
      · intro h
        rw [separatedUpTo, bind_eq_ok_iff] at h
        rcases h with ⟨a, t, ha, -⟩
        rcases (hitem s a t hroom).mp ha with ⟨used, htook, hR⟩
        exact absurd (hnone used t htook) (hne used a hR)
      · rintro ⟨used, htook, hsep, -⟩
        have hused := hnone used s' htook
        cases hsep with
        | one hR => exact absurd hused (hne _ _ hR)
        | more _ _ _ => exact absurd hused (by simp)
  | succ n ih =>
      intro s hroom hn as s'
      -- Behind an item and a comma the bound for the rest is met again.
      have hshorter : ∀ used t, s.Took used t → used ≠ [] → t.next.rest.length ≤ n := by
        intro used t htook hused
        have hlen := congrArg List.length htook.rest_eq
        have hpos := List.length_pos_iff.mpr hused
        rw [List.length_append] at hlen
        rw [next, List.length_tail]
        omega
      rw [separatedUpTo, bind_eq_ok_iff]
      constructor
      · rintro ⟨a, t, ha, hrest⟩
        rcases (hitem s a t hroom).mp ha with ⟨us, hus, hR⟩
        rcases bind_eq_ok_iff.mp hrest with ⟨bs, u, hbs, hpure⟩
        cases hpure
        rw [onlyAt] at hbs
        -- The token behind the item decides: only a comma is taken, and the list goes on.
        by_cases hcomma : t.kind = .comma
        · have hmore_iff := ih t.next (hus.room_eq.trans hroom)
            (hshorter us t hus (hne us a hR)) bs s'
          rw [if_pos hcomma] at hbs
          rcases bind_eq_ok_iff.mp hbs with ⟨comma, u, hadvance, hmore⟩
          cases hadvance
          rcases hmore_iff.mp hmore with ⟨vs, hvs, hsep, hend⟩
          have hone : t.Took [t.current] t.next :=
            took_singleton_iff.mpr ⟨by rw [hcomma]; decide, rfl, rfl⟩
          exact ⟨us ++ t.current :: vs,
            took_append_iff.mpr ⟨t, hus, took_append_iff.mpr ⟨t.next, hone, hvs⟩⟩,
            .more hR hcomma hsep, hend⟩
        · rw [if_neg hcomma] at hbs
          cases hbs
          exact ⟨us, hus, .one hR, hcomma⟩
      · rintro ⟨used, htook, hsep, hend⟩
        cases hsep with
        | @one _ a hR =>
            -- No comma follows, so the parser stops here as well.
            refine ⟨a, s', (hitem s a s' hroom).mpr ⟨used, htook, hR⟩,
              bind_eq_ok_iff.mpr ⟨[], s', ?_, rfl⟩⟩
            rw [onlyAt, if_neg hend]
        | @more us vs comma a bs hR hcomma hsep =>
            rcases took_append_iff.mp htook with ⟨t, hus, hrest⟩
            rcases (took_append_iff (a := [comma])).mp hrest with ⟨u, hone, hvs⟩
            have hkind : t.kind = .comma := hrest.kind_eq.trans hcomma
            rcases took_singleton_iff.mp hone with ⟨-, -, rfl⟩
            have hmore_iff := ih t.next (hus.room_eq.trans hroom)
              (hshorter us t hus (hne us a hR)) bs s'
            refine ⟨a, t, (hitem s a t hroom).mpr ⟨us, hus, hR⟩,
              bind_eq_ok_iff.mpr ⟨bs, s', ?_, rfl⟩⟩
            rw [onlyAt, if_pos hkind]
            refine bind_eq_ok_iff.mpr ⟨t.current, t.next, rfl, ?_⟩
            exact hmore_iff.mpr ⟨vs, hvs, hsep, hend⟩

/-- A list of items is taken as a whole if no comma follows. -/
theorem acceptsBefore_separated {kind : Token.Kind} (hkind : kind ≠ .comma) {item : Parser α}
    {R : List Token → α → Prop} (hitem : Accepts room item R) (hne : ∀ ts a, R ts a → ts ≠ []) :
    AcceptsBefore kind room (separated item) (Separated R) := by
  intro s as s' hroom hs'
  rw [separated, separatedUpTo_eq_ok_iff hitem hne _ s hroom (Nat.le_refl _)]
  have hend : s'.kind ≠ .comma := hs' ▸ hkind
  simp only [ne_eq, hend, not_false_eq_true, and_true]

/-- Items that are left out in front of a closing token. -/
theorem acceptsBefore_unlessAt {kind : Token.Kind} {items : Parser (List α)}
    {R : List Token → List α → Prop} (hitems : AcceptsBefore kind room items R)
    (hhead : ∀ ts as, R ts as → ∃ t rest, ts = t :: rest ∧ t.kind ≠ kind) :
    AcceptsBefore kind room (unlessAt kind items) fun ts as => ts = [] ∧ as = [] ∨ R ts as := by
  intro s as s' hroom hs'
  rw [unlessAt]
  by_cases hs : s.kind = kind
  · rw [if_pos hs]
    constructor
    · intro h
      cases h
      exact ⟨[], took_nil_iff.mpr rfl, Or.inl ⟨rfl, rfl⟩⟩
    · rintro ⟨used, htook, ⟨rfl, rfl⟩ | hR⟩
      · rw [took_nil_iff.mp htook]
      · -- Items do not start with the closing token, and that is what is there.
        rcases hhead used as hR with ⟨t, rest, rfl, ht⟩
        exact absurd (htook.kind_eq.symm.trans hs) ht
  · rw [if_neg hs, hitems s as s' hroom hs']
    constructor
    · rintro ⟨used, htook, hR⟩
      exact ⟨used, htook, Or.inr hR⟩
    · rintro ⟨used, htook, ⟨rfl, rfl⟩ | hR⟩
      · rw [took_nil_iff.mp htook] at hs'
        exact absurd hs' hs
      · exact ⟨used, htook, hR⟩

/-- Items that are left out unless there is an opening token. -/
theorem acceptsBefore_onlyAt {kind opening : Token.Kind} (hkind : kind ≠ opening)
    {items : Parser (List α)} {R : List Token → List α → Prop} (hitems : Accepts room items R)
    (hhead : ∀ ts as, R ts as → ∃ t rest, ts = t :: rest ∧ t.kind = opening) :
    AcceptsBefore kind room (onlyAt opening items) fun ts as => ts = [] ∧ as = [] ∨ R ts as := by
  intro s as s' hroom hs'
  rw [onlyAt]
  by_cases hs : s.kind = opening
  · rw [if_pos hs, hitems s as s' hroom]
    constructor
    · rintro ⟨used, htook, hR⟩
      exact ⟨used, htook, Or.inr hR⟩
    · rintro ⟨used, htook, ⟨rfl, rfl⟩ | hR⟩
      · rw [took_nil_iff.mp htook] at hs'
        -- Nothing taken would leave the opening token where the other kind is.
        exact absurd (hs'.symm.trans hs) hkind
      · exact ⟨used, htook, hR⟩
  · rw [if_neg hs]
    constructor
    · intro h
      cases h
      exact ⟨[], took_nil_iff.mpr rfl, Or.inl ⟨rfl, rfl⟩⟩
    · rintro ⟨used, htook, ⟨rfl, rfl⟩ | hR⟩
      · rw [took_nil_iff.mp htook]
      · rcases hhead used as hR with ⟨t, rest, rfl, ht⟩
        exact absurd (htook.kind_eq.trans ht) hs

end Parser

end Annotations
