import Annotations.Proofs.Parser.Moves
import Mathlib.Data.List.Forall2

/-!
# Two Runs Side by Side

The parser on two inputs whose tokens correspond one by one, under limits of
which the first is not greater than the second. Corresponding tokens are of one
kind and have one text, and nothing is assumed about where they stand. The two
runs then do the same: they succeed with the same result after the same number
of tokens, or they fail with the same cause at corresponding positions. There is
one exception. The first run fails for want of room where the second one goes
on, if its limit is the smaller one and so many maps are open as it allows.

`InStep` says this of two parsers, and a combination of parsers is in step if its
parts are. Both runs count the same number of open maps, which is written down at
the start and at the end, since the rule for maps changes it on the way.

What tells two inputs apart is left open: one relation of tokens serves for
comparing limits on one input, and another one for comparing inputs that differ
in white space.

## Main definitions

* `Parser.Alike`: Corresponding tokens have one kind and one text.
* `Parser.Corresponds`, `Parser.FaultsAlike`: Positions and faults that correspond.
* `Parser.State.Beside`: States of the two runs.
* `Parser.Outcome`, `Parser.InStep`: What becomes of the two runs.

## Theorems

* `Parser.InStep.bind`: Sequences of parsers.
* `Parser.inStep_separated`: Lists of items.
* `Parser.outcome_mapWithin`: Maps, where the limits come into play.
* `Parser.inStep_attributes`, `Parser.outcome_tag`: The parts of a tag.
* `Parser.outcome_wholeTag`: A whole input.
-/

namespace Annotations

open Source

namespace Parser

/-- Corresponding tokens have one kind and one text. -/
structure Alike (τ : Token → Token → Prop) : Prop where
  kind_eq : ∀ {t u : Token}, τ t u → u.kind = t.kind
  text_eq : ∀ {t u : Token}, τ t u → u.text = t.text

/-- Two positions are the starts of corresponding tokens. -/
def Corresponds (τ : Token → Token → Prop) (p q : Position) : Prop :=
  ∃ t u, τ t u ∧ p = t.span.start ∧ q = u.span.start

/-- Two faults have one cause, at positions that correspond. Only a hash sign that
    stands apart is reported where it ends. -/
structure FaultsAlike (τ : Token → Token → Prop) (f g : Fault) : Prop where
  cause_eq : g.cause = f.cause
  position : Corresponds τ f.position g.position ∨
    f.cause = .detachedHash ∧ ∃ t u, τ t u ∧ f.position = t.span.stop ∧ g.position = u.span.stop

/-- States of two runs under limits: the tokens left correspond, and equally many
    maps are open. -/
structure State.Beside (τ : Token → Token → Prop) (m n d : Nat) (s t : State) : Prop where
  rest : List.Forall₂ τ s.rest t.rest
  stop : τ s.stop t.stop
  depth_left : s.depth = d
  depth_right : t.depth = d
  limit_left : s.maxDepth = m
  limit_right : t.maxDepth = n

variable {α β γ δ : Type} {τ : Token → Token → Prop} {m n d e : Nat}

/-- What becomes of two runs: both succeed with results that belong together, both
    fail alike, or the first one lacks the room that the second one has. -/
inductive Outcome (τ : Token → Token → Prop) (m n d : Nat) (ρ : α → β → Prop) :
    EStateM.Result Fault State α → EStateM.Result Fault State β → Prop where
  | ok {a : α} {b : β} {s t : State} :
      ρ a b → s.Beside τ m n d t → Outcome τ m n d ρ (.ok a s) (.ok b t)
  | error {f g : Fault} {s t : State} :
      FaultsAlike τ f g → Outcome τ m n d ρ (.error f s) (.error g t)
  | tooDeep {s : State} {result : EStateM.Result Fault State β} :
      m < n → s.kind = .openCurly → s.room = 0 →
      Outcome τ m n d ρ (.error ⟨.nestingTooDeep m, s.position⟩ s) result

/-- From states side by side with `d` maps open, two parsers come to the same, and
    where both succeed `e` maps are open. -/
def InStep (τ : Token → Token → Prop) (m n d e : Nat) (p : Parser α) (q : Parser β)
    (ρ : α → β → Prop) : Prop :=
  ∀ s t, s.Beside τ m n d t → Outcome τ m n e ρ (p s) (q t)

namespace State.Beside

variable {s t : State}

theorem current (h : s.Beside τ m n d t) : τ s.current t.current := by
  have hrest := h.rest
  rw [State.current, State.current]
  generalize s.rest = ts at hrest ⊢
  generalize t.rest = us at hrest ⊢
  cases hrest with
  | nil => exact h.stop
  | cons hhead _ => exact hhead

theorem kind_eq (h : s.Beside τ m n d t) (hτ : Alike τ) : t.kind = s.kind :=
  hτ.kind_eq h.current

theorem text_eq (h : s.Beside τ m n d t) (hτ : Alike τ) : t.current.text = s.current.text :=
  hτ.text_eq h.current

theorem position (h : s.Beside τ m n d t) : Corresponds τ s.position t.position :=
  ⟨s.current, t.current, h.current, rfl, rfl⟩

theorem next (h : s.Beside τ m n d t) : s.next.Beside τ m n d t.next where
  rest := by
    have hrest := h.rest
    rw [State.next, State.next]
    generalize s.rest = ts at hrest ⊢
    generalize t.rest = us at hrest ⊢
    cases hrest with
    | nil => exact .nil
    | cons _ htail => exact htail
  stop := h.stop
  depth_left := h.depth_left
  depth_right := h.depth_right
  limit_left := h.limit_left
  limit_right := h.limit_right

/-- At corresponding tokens, what was expected is missed alike. -/
theorem unexpected (h : s.Beside τ m n d t) (hτ : Alike τ) (expected : String) :
    FaultsAlike τ (s.unexpected expected) (t.unexpected expected) where
  cause_eq := by
    simp only [State.unexpected, h.kind_eq hτ, h.text_eq hτ]
  position := Or.inl h.position

/-- The states with one more map open on either side. -/
theorem opened (h : s.Beside τ m n d t) :
    State.Beside τ m n (d + 1) { s with depth := s.depth + 1 } { t with depth := t.depth + 1 } where
  rest := h.rest
  stop := h.stop
  depth_left := congrArg Nat.succ h.depth_left
  depth_right := congrArg Nat.succ h.depth_right
  limit_left := h.limit_left
  limit_right := h.limit_right

/-- The states with one map less open on either side. -/
theorem closed (h : s.Beside τ m n (d + 1) t) :
    State.Beside τ m n d { s with depth := s.depth - 1 } { t with depth := t.depth - 1 } where
  rest := h.rest
  stop := h.stop
  depth_left := congrArg Nat.pred h.depth_left
  depth_right := congrArg Nat.pred h.depth_right
  limit_left := h.limit_left
  limit_right := h.limit_right

end State.Beside

/-- What becomes of two sequences, once it is known what became of their first
    parsers. -/
theorem Outcome.bind {p : Parser α} {q : Parser β} {f : α → Parser γ} {g : β → Parser δ}
    {ρ : α → β → Prop} {σ : γ → δ → Prop} {s t : State} (hpq : Outcome τ m n d ρ (p s) (q t))
    (hfg : ∀ a b, ρ a b → InStep τ m n d e (f a) (g b) σ) :
    Outcome τ m n e σ ((p >>= f) s) ((q >>= g) t) := by
  generalize hleft : p s = left at hpq
  generalize hright : q t = right at hpq
  cases hpq with
  | ok hab hst =>
      rw [bind_ok hleft, bind_ok hright]
      exact hfg _ _ hab _ _ hst
  | error hfaults =>
      rw [bind_error hleft, bind_error hright]
      exact .error hfaults
  | tooDeep hlt hkind hroom =>
      rw [bind_error hleft]
      exact .tooDeep hlt hkind hroom

/-- Sequences are in step if their parts are, where what follows may depend on
    results that belong together. -/
theorem InStep.bind {p : Parser α} {q : Parser β} {f : α → Parser γ} {g : β → Parser δ}
    {ρ : α → β → Prop} {σ : γ → δ → Prop} {c : Nat} (hpq : InStep τ m n d e p q ρ)
    (hfg : ∀ a b, ρ a b → InStep τ m n e c (f a) (g b) σ) :
    InStep τ m n d c (p >>= f) (q >>= g) σ :=
  fun s t hst => (hpq s t hst).bind hfg

theorem inStep_pure {ρ : α → β → Prop} {a : α} {b : β} (h : ρ a b) :
    InStep τ m n d d (pure a) (pure b) ρ :=
  fun _ _ hst => .ok h hst

/-- The results of parsers in step, seen through functions that keep them
    together. -/
theorem InStep.map {p : Parser α} {q : Parser β} {ρ : α → β → Prop} {σ : γ → δ → Prop}
    {f : α → γ} {g : β → δ} (hpq : InStep τ m n d e p q ρ) (hfg : ∀ a b, ρ a b → σ (f a) (g b)) :
    InStep τ m n d e (p >>= fun a => pure (f a)) (q >>= fun b => pure (g b)) σ :=
  hpq.bind fun a b hab => inStep_pure (hfg a b hab)

/-- What is told from two states that either both give a result or both refuse. -/
theorem inStep_look {ρ : α → β → Prop} {view : State → Except Fault α}
    {view' : State → Except Fault β}
    (h : ∀ s t, s.Beside τ m n d t →
      (∃ a b, view s = .ok a ∧ view' t = .ok b ∧ ρ a b) ∨
      ∃ f g, view s = .error f ∧ view' t = .error g ∧ FaultsAlike τ f g) :
    InStep τ m n d d (look view) (look view') ρ := by
  intro s t hst
  rw [look, look]
  rcases h s t hst with ⟨a, b, ha, hb, hab⟩ | ⟨f, g, hf, hg, hfg⟩
  · rw [ha, hb]
    exact .ok hab hst
  · rw [hf, hg]
    exact .error hfg

theorem inStep_position : InStep τ m n d d position position (Corresponds τ) :=
  fun _ _ hst => .ok hst.position hst

theorem inStep_advance : InStep τ m n d d advance advance τ :=
  fun _ _ hst => .ok hst.current hst.next

theorem inStep_expect (hτ : Alike τ) (kind : Token.Kind) :
    InStep τ m n d d (expect kind) (expect kind) τ := by
  intro s t hst
  by_cases hs : s.kind = kind
  · rw [expect_of_kind hs, expect_of_kind ((hst.kind_eq hτ).trans hs)]
    exact .ok hst.current hst.next
  · have ht : t.kind ≠ kind := by
      rw [hst.kind_eq hτ]
      exact hs
    rw [expect_of_ne hs, expect_of_ne ht]
    exact .error (hst.unexpected hτ kind.describe)

/-- A check that comes out the same on both sides, for one cause. -/
theorem inStep_refuseIf {condition : State → Bool} {cause : State → Fault.Cause}
    (hcondition : ∀ s t, s.Beside τ m n d t → condition t = condition s)
    (hcause : ∀ s t, s.Beside τ m n d t → cause t = cause s) :
    InStep τ m n d d (refuseIf condition cause) (refuseIf condition cause) (· = ·) := by
  intro s t hst
  rw [refuseIf, refuseIf, hcondition s t hst]
  split
  · exact .error ⟨hcause s t hst, Or.inl hst.position⟩
  · exact .ok rfl hst

theorem inStep_unlessAt (hτ : Alike τ) (closing : Token.Kind) {p : Parser (List α)}
    {q : Parser (List β)} {ρ : α → β → Prop} (hpq : InStep τ m n d d p q (List.Forall₂ ρ)) :
    InStep τ m n d d (unlessAt closing p) (unlessAt closing q) (List.Forall₂ ρ) := by
  intro s t hst
  rw [unlessAt, unlessAt, hst.kind_eq hτ]
  split
  · exact .ok .nil hst
  · exact hpq s t hst

theorem inStep_onlyAt (hτ : Alike τ) (opening : Token.Kind) {p : Parser (List α)}
    {q : Parser (List β)} {ρ : α → β → Prop} (hpq : InStep τ m n d d p q (List.Forall₂ ρ)) :
    InStep τ m n d d (onlyAt opening p) (onlyAt opening q) (List.Forall₂ ρ) := by
  intro s t hst
  rw [onlyAt, onlyAt, hst.kind_eq hτ]
  split
  · exact hpq s t hst
  · exact .ok .nil hst

theorem inStep_separatedUpTo (hτ : Alike τ) {p : Parser α} {q : Parser β} {ρ : α → β → Prop}
    (hpq : InStep τ m n d d p q ρ) (bound : Nat) :
    InStep τ m n d d (separatedUpTo p bound) (separatedUpTo q bound) (List.Forall₂ ρ) := by
  induction bound with
  | zero => exact hpq.map fun a b hab => .cons hab .nil
  | succ bound ih =>
      refine hpq.bind fun a b hab => ?_
      have hrest := inStep_onlyAt hτ .comma (inStep_advance.bind fun _ _ _ => ih)
      exact hrest.map fun as bs hrest => .cons hab hrest

/-- A list of items: as many tokens are left on both sides, so the bounds on its
    length are the same. -/
theorem inStep_separated (hτ : Alike τ) {p : Parser α} {q : Parser β} {ρ : α → β → Prop}
    (hpq : InStep τ m n d d p q ρ) :
    InStep τ m n d d (separated p) (separated q) (List.Forall₂ ρ) := by
  intro s t hst
  rw [separated, separated, ← hst.rest.length_eq]
  exact inStep_separatedUpTo hτ hpq s.rest.length s t hst

/-- Corresponding tokens are the same scalar, or are refused for the same cause. -/
theorem State.Beside.literal {s t : State} (h : s.Beside τ m n d t) (hτ : Alike τ) :
    (∃ l l', s.literal = .ok l ∧ t.literal = .ok l' ∧ l = l') ∨
    ∃ f g, s.literal = .error f ∧ t.literal = .error g ∧ FaultsAlike τ f g := by
  have hkind : t.current.kind = s.current.kind := h.kind_eq hτ
  have hrefuse : ∀ cause : Fault.Cause,
      FaultsAlike τ ⟨cause, s.position⟩ ⟨cause, t.position⟩ := fun _ => ⟨rfl, Or.inl h.position⟩
  simp only [State.literal, hkind, h.text_eq hτ]
  split
  · exact Or.inl ⟨_, _, rfl, rfl, rfl⟩
  · split
    · exact Or.inl ⟨_, _, rfl, rfl, rfl⟩
    · exact Or.inr ⟨_, _, rfl, rfl, hrefuse _⟩
  · split
    · exact Or.inl ⟨_, _, rfl, rfl, rfl⟩
    · exact Or.inr ⟨_, _, rfl, rfl, hrefuse _⟩
  · exact Or.inl ⟨_, _, rfl, rfl, rfl⟩
  · exact Or.inl ⟨_, _, rfl, rfl, rfl⟩
  · exact Or.inr ⟨_, _, rfl, rfl, hrefuse _⟩
  · exact Or.inr ⟨_, _, rfl, rfl, hrefuse _⟩
  · exact Or.inr ⟨_, _, rfl, rfl, h.unexpected hτ _⟩

theorem inStep_literal (hτ : Alike τ) : InStep τ m n d d literal literal (· = ·) :=
  (inStep_look fun _ _ hst => hst.literal hτ).bind fun _ _ hl =>
    inStep_advance.bind fun _ _ _ => inStep_pure hl

/-- List elements that belong together: one scalar, at corresponding positions. -/
def ElementsAlike (τ : Token → Token → Prop) (x y : Literal × Position) : Prop :=
  x.1 = y.1 ∧ Corresponds τ x.2 y.2

theorem inStep_element (hτ : Alike τ) :
    InStep τ m n d d element element (ElementsAlike τ) :=
  inStep_position.bind fun _ _ hstart =>
    (inStep_literal hτ).bind fun _ _ hl => inStep_pure ⟨hl, hstart⟩

/-- Elements that belong together fold to one list, or to one fault. The position
    of the fault is that of an element or, were there none, of the bracket. -/
theorem foldElements_alike {opening opening' : Token} (hopening : τ opening opening')
    (htext : opening'.text = opening.text) {xs ys : List (Literal × Position)}
    (h : List.Forall₂ (ElementsAlike τ) xs ys) :
    (∃ v w, foldElements opening xs = .ok v ∧ foldElements opening' ys = .ok w ∧ v = w) ∨
    ∃ f g, foldElements opening xs = .error f ∧ foldElements opening' ys = .error g ∧
      FaultsAlike τ f g := by
  have hstart : Corresponds τ opening.span.start opening'.span.start :=
    ⟨opening, opening', hopening, rfl, rfl⟩
  have hliterals : ys.map Prod.fst = xs.map Prod.fst := by
    induction h with
    | nil => rfl
    | cons hxy _ ih => rw [List.map_cons, List.map_cons, ih, hxy.1]
  -- An index beyond the elements falls back on the bracket, on both sides.
  have hposition : ∀ index : Nat, Corresponds τ
      ((xs[index]?.map Prod.snd).getD opening.span.start)
      ((ys[index]?.map Prod.snd).getD opening'.span.start) := by
    clear hliterals
    induction h with
    | nil => exact fun _ => hstart
    | cons hxy _ ih =>
        intro index
        cases index with
        | zero => exact hxy.2
        | succ index => exact ih index
  rw [foldElements, foldElements, hliterals]
  cases Literal.fold (xs.map Prod.fst) with
  | ok v => exact Or.inl ⟨v, v, rfl, rfl, rfl⟩
  | error fault =>
      cases fault with
      | empty =>
          refine Or.inr ⟨_, _, rfl, rfl, ?_, Or.inl hstart⟩
          simp only [htext]
      | mixed index expected received =>
          exact Or.inr ⟨_, _, rfl, rfl, rfl, Or.inl (hposition index)⟩

theorem inStep_list (hτ : Alike τ) : InStep τ m n d d list list (· = ·) :=
  (inStep_expect hτ .openBracket).bind fun _ _ hopening =>
    (inStep_separated hτ (inStep_element hτ)).bind fun _ _ helements =>
      (inStep_expect hτ .closeBracket).bind fun _ _ _ =>
        inStep_look fun _ _ _ => foldElements_alike hopening (hτ.text_eq hopening) helements

theorem inStep_valueWith (hτ : Alike τ) {map map' : Parser Value}
    (hmap : ∀ s t, s.Beside τ m n d t → s.kind = .openCurly →
      Outcome τ m n d (· = ·) (map s) (map' t)) :
    InStep τ m n d d (valueWith map) (valueWith map') (· = ·) := by
  have hliteral : InStep τ m n d d literalValue literalValue (· = ·) :=
    (inStep_literal hτ).map fun _ _ hl => congrArg Literal.toValue hl
  intro s t hst
  rw [valueWith, valueWith, hst.kind_eq hτ]
  split
  iterate 5 exact hliteral s t hst
  · exact inStep_list hτ s t hst
  · next hkind => exact hmap s t hst hkind
  · exact .error (hst.unexpected hτ _)

theorem inStep_entryWith (hτ : Alike τ) {value value' : Parser Value}
    (hvalue : InStep τ m n d d value value' (· = ·)) :
    InStep τ m n d d (entryWith value) (entryWith value') (· = ·) :=
  (inStep_expect hτ .identifier).bind fun name name' hname =>
    (inStep_expect hτ .assignment).bind fun _ _ _ =>
      hvalue.map fun v v' hv => by rw [hτ.text_eq hname, hv]

theorem eq_of_forall₂_eq {as bs : List α} (h : List.Forall₂ (· = ·) as bs) : as = bs := by
  rw [List.forall₂_eq_eq_eq] at h
  exact h

/-- Maps are where the limits come into play. As long as there is room under the
    smaller limit there is under the greater one, and both runs go on with one more
    map open. Without room under either limit, both runs fail alike. -/
theorem outcome_mapWithin (hτ : Alike τ) (hle : m ≤ n) :
    ∀ (room d : Nat), m - d = room → ∀ s t : State, s.Beside τ m n d t → s.kind = .openCurly →
      Outcome τ m n d (· = ·) (mapWithin room s) (mapWithin (n - d) t) := by
  intro room
  induction room with
  | zero =>
      intro d hroom s t hst hkind
      -- The runs part only here, and only if the limits differ.
      rcases Nat.lt_or_eq_of_le hle with hlt | rfl
      · rw [mapWithin, tooDeep, hst.limit_left]
        refine .tooDeep hlt hkind ?_
        rw [State.room, hst.limit_left, hst.depth_left, hroom]
      · rw [hroom, mapWithin, tooDeep, tooDeep]
        refine .error ⟨?_, Or.inl hst.position⟩
        rw [hst.limit_left, hst.limit_right]
  | succ room ih =>
      intro d hroom s t hst hkind
      -- Inside of the braces one more map is open, for which the induction leaves room.
      have hroom' : m - (d + 1) = room := by omega
      have hright : n - d = n - (d + 1) + 1 := by omega
      have hvalue : InStep τ m n (d + 1) (d + 1) (valueWith (mapWithin room))
          (valueWith (mapWithin (n - (d + 1)))) (· = ·) :=
        inStep_valueWith hτ (ih (d + 1) hroom')
      have hentries := inStep_unlessAt hτ .closeCurly
        (inStep_separated hτ (inStep_entryWith hτ hvalue))
      have hopened : InStep τ m n d (d + 1) countOpened countOpened (· = ·) :=
        fun _ _ hst => .ok rfl hst.opened
      have hleft : InStep τ m n (d + 1) d leave leave (· = ·) :=
        fun _ _ hst => .ok rfl hst.closed
      rw [hright, mapWithin, mapWithin]
      exact (hopened.bind fun _ _ _ => (inStep_expect hτ .openCurly).bind fun _ _ _ =>
        hentries.bind fun es es' hes => (inStep_expect hτ .closeCurly).bind fun _ _ _ =>
          hleft.map fun _ _ _ => congrArg Value.map (eq_of_forall₂_eq hes)) s t hst

theorem inStep_value (hτ : Alike τ) (hle : m ≤ n) :
    InStep τ m n d d value value (· = ·) := by
  refine inStep_valueWith hτ fun s t hst hkind => ?_
  have hroom : s.room = m - d := by rw [State.room, hst.limit_left, hst.depth_left]
  have hroom' : t.room = n - d := by rw [State.room, hst.limit_right, hst.depth_right]
  rw [map, map, hroom, hroom']
  exact outcome_mapWithin hτ hle (m - d) d rfl s t hst hkind

theorem inStep_attributes (hτ : Alike τ) (hle : m ≤ n) :
    InStep τ m n d d attributes attributes (List.Forall₂ (· = ·)) := by
  have hrefuse : InStep τ m n d d (refuseIf (·.kind = .closeParen) fun _ => .emptyAttributes)
      (refuseIf (·.kind = .closeParen) fun _ => .emptyAttributes) (· = ·) :=
    inStep_refuseIf (fun s t hst => by rw [hst.kind_eq hτ]) (fun _ _ _ => rfl)
  exact (inStep_expect hτ .openParen).bind fun _ _ _ => hrefuse.bind fun _ _ _ =>
    (inStep_separated hτ (inStep_entryWith hτ (inStep_value hτ hle))).bind fun _ _ hes =>
      (inStep_expect hτ .closeParen).bind fun _ _ _ => inStep_pure hes

/-- A bracket that follows its hash sign at once on both sides or on neither. -/
theorem inStep_adjacent {hash hash' opening opening' : Token} (hhash : τ hash hash')
    (h : opening'.span.start = hash'.span.stop ↔ opening.span.start = hash.span.stop) :
    InStep τ m n d d (adjacent hash opening) (adjacent hash' opening') (· = ·) := by
  intro s t hst
  rw [adjacent, adjacent]
  by_cases hspan : opening.span.start = hash.span.stop
  · rw [if_pos hspan, if_pos (h.mpr hspan)]
    exact .ok rfl hst
  · rw [if_neg hspan, if_neg (mt h.mp hspan)]
    exact .error ⟨rfl, Or.inr ⟨rfl, hash, hash', hhash, rfl, rfl⟩⟩

/-- If the first two tokens are a hash sign and a bracket, the bracket follows the
    hash sign at once in both inputs or in neither. -/
def AdjacentAlike (s t : State) : Prop :=
  ∀ hash opening more hash' opening' more', s.rest = hash :: opening :: more →
    t.rest = hash' :: opening' :: more' → hash.kind = .hash → opening.kind = .openBracket →
    (opening'.span.start = hash'.span.stop ↔ opening.span.start = hash.span.stop)

/-- Tags are read alike from states side by side. Only here it matters where tokens
    stand, and only for the first two of them. -/
theorem outcome_tag (hτ : Alike τ) (hle : m ≤ n) {s t : State} (hst : s.Beside τ m n d t)
    (hadjacent : AdjacentAlike s t) : Outcome τ m n d (· = ·) (tag s) (tag t) := by
  have hbody : InStep τ m n d d
      (expect .identifier >>= fun identity => onlyAt .openParen attributes >>= fun attrs =>
        expect .closeBracket >>= fun _ => pure (⟨identity.text, attrs⟩ : Tag))
      (expect .identifier >>= fun identity => onlyAt .openParen attributes >>= fun attrs =>
        expect .closeBracket >>= fun _ => pure (⟨identity.text, attrs⟩ : Tag)) (· = ·) :=
    (inStep_expect hτ .identifier).bind fun identity identity' hidentity =>
      (inStep_onlyAt hτ .openParen (inStep_attributes hτ hle)).bind fun es es' hes =>
        (inStep_expect hτ .closeBracket).bind fun _ _ _ =>
          inStep_pure (by rw [hτ.text_eq hidentity, eq_of_forall₂_eq hes])
  rw [tag]
  by_cases hhash : s.kind = .hash
  · have hhash' : t.kind = .hash := (hst.kind_eq hτ).trans hhash
    rw [bind_ok (expect_of_kind hhash), bind_ok (expect_of_kind hhash')]
    by_cases hopening : s.next.kind = .openBracket
    · have hopening' : t.next.kind = .openBracket := (hst.next.kind_eq hτ).trans hopening
      rw [bind_ok (expect_of_kind hopening), bind_ok (expect_of_kind hopening')]
      -- Both tokens have been read, so they are the first two of either input.
      have hfirst : ∀ u : State, u.kind = .hash → u.next.kind = .openBracket →
          u.rest = u.current :: u.next.current :: u.next.next.rest := by
        intro u hu hu'
        have hend : u.kind ≠ .endOfInput := by rw [hu]; decide
        have hend' : u.next.kind ≠ .endOfInput := by rw [hu']; decide
        rw [State.rest_eq_cons hend, State.rest_eq_cons hend']
      have hiff := hadjacent _ _ _ _ _ _ (hfirst s hhash hopening) (hfirst t hhash' hopening')
        hhash hopening
      exact ((inStep_adjacent hst.current hiff).bind fun _ _ _ => hbody) _ _ hst.next.next
    · have hopening' : t.next.kind ≠ .openBracket := by
        rw [hst.next.kind_eq hτ]
        exact hopening
      rw [bind_error (expect_of_ne hopening), bind_error (expect_of_ne hopening')]
      exact .error (hst.next.unexpected hτ _)
  · have hhash' : t.kind ≠ .hash := by
      rw [hst.kind_eq hτ]
      exact hhash
    rw [bind_error (expect_of_ne hhash), bind_error (expect_of_ne hhash')]
    exact .error (hst.unexpected hτ _)

/-- Whole inputs are read alike. -/
theorem outcome_wholeTag (hτ : Alike τ) (hle : m ≤ n) {s t : State} (hst : s.Beside τ m n d t)
    (hadjacent : AdjacentAlike s t) : Outcome τ m n d (· = ·) (wholeTag s) (wholeTag t) := by
  have hrefuse : InStep τ m n d d
      (refuseIf (·.kind ≠ .endOfInput) fun s => .trailingInput s.current.text)
      (refuseIf (·.kind ≠ .endOfInput) fun s => .trailingInput s.current.text) (· = ·) :=
    inStep_refuseIf (fun s t hst => by rw [hst.kind_eq hτ]) (fun s t hst => by rw [hst.text_eq hτ])
  exact (outcome_tag hτ hle hst hadjacent).bind fun _ _ htag =>
    hrefuse.bind fun _ _ _ => inStep_pure htag

end Parser

end Annotations
