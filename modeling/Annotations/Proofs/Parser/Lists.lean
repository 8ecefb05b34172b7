import Annotations.Parser.Rules
import Annotations.Proofs.Parser.Accepts

/-!
# The Parser Accepts Scalars and Lists

The rules of the parser that no map is involved in. A scalar is one token whose
text reads as the scalar, and a list is scalars between brackets that make up a
list value. Both are accepted in any room for further maps.

The parser keeps where each element of a list starts, for the faults that it may
have to report. The grammar has no use for that, so the step from elements to
scalars forgets it, and the step back has to find it in the tokens again.

## Main definitions

* `DerivesList`: Tokens that write a list.

## Theorems

* `State.literal_eq_ok_iff`: The scalar that the current token is.
* `derivesLiteral_singleton`: A scalar is written by one token.
* `accepts_literal`, `accepts_element`: Scalars, and scalars as elements.
* `accepts_list`: Lists.
-/

namespace Annotations

open Grammar

namespace Parser

open State

variable {room : Nat}

/-- The current token is a scalar exactly if the grammar derives one from it. -/
theorem State.literal_eq_ok_iff {s : State} {l : Literal} :
    s.literal = .ok l ↔ DerivesLiteral [s.current] l := by
  constructor
  · -- One case for each kind of token, and a further one for whether its text reads.
    intro h
    simp only [State.literal] at h
    split at h
    · next hkind =>
        cases h
        exact .string hkind
    · next hkind =>
        split at h
        · next n hn =>
            cases h
            exact .integer hkind hn
        · cases h
    · next hkind =>
        split at h
        · next x hx =>
            -- A text that reads as infinity has been filtered out.
            cases h
            rcases Option.filter_eq_some_iff.mp hx with ⟨hread, hfinite⟩
            exact .float hkind hread hfinite
        · cases h
    · next hkind =>
        cases h
        exact .trueWord hkind
    · next hkind =>
        cases h
        exact .falseWord hkind
    -- The kinds that are left are refused.
    · cases h
    · cases h
    · cases h
  · intro h
    unfold State.literal
    cases h with
    | string hkind => simp only [hkind]
    | integer hkind hn => simp only [hkind, hn]
    | float hkind hx hfinite =>
        simp only [hkind, hx, Option.filter_some, hfinite, if_true]
    | trueWord hkind => simp only [hkind]
    | falseWord hkind => simp only [hkind]

/-- A scalar is written by one token, and that token does not end the input. -/
theorem derivesLiteral_singleton {ts : List Token} {l : Literal} (h : DerivesLiteral ts l) :
    ∃ t, ts = [t] ∧ t.kind ≠ .endOfInput := by
  cases h with
  | string h | integer h _ | float h _ _ | trueWord h | falseWord h =>
      exact ⟨_, rfl, by rw [h]; decide⟩

theorem look_eq_ok_iff {α : Type} {view : State → Except Fault α} {s s' : State} {a : α} :
    look view s = .ok a s' ↔ view s = .ok a ∧ s' = s := by
  rw [look]
  cases view s with
  | ok b =>
      constructor
      · intro h
        cases h
        exact ⟨rfl, rfl⟩
      · rintro ⟨h, rfl⟩
        cases h
        rfl
  | error fault =>
      constructor
      · intro h
        cases h
      · rintro ⟨h, -⟩
        cases h

/-- A scalar is taken as one token. -/
theorem accepts_literal : Accepts room literal DerivesLiteral := by
  intro s l s' hroom
  rw [literal, bind_eq_ok_iff]
  constructor
  · rintro ⟨l', t, hlook, hrest⟩
    -- Looking leaves the state as it is, so what is passed is the token looked at.
    rcases look_eq_ok_iff.mp hlook with ⟨hl, rfl⟩
    cases hrest
    have hderives := State.literal_eq_ok_iff.mp hl
    rcases derivesLiteral_singleton hderives with ⟨u, hu, hkind⟩
    cases hu
    exact ⟨[t.current], took_singleton_iff.mpr ⟨hkind, rfl, rfl⟩, hderives⟩
  · rintro ⟨used, htook, hderives⟩
    rcases derivesLiteral_singleton hderives with ⟨u, rfl, -⟩
    rcases took_singleton_iff.mp htook with ⟨-, rfl, rfl⟩
    exact ⟨l, s, look_eq_ok_iff.mpr ⟨State.literal_eq_ok_iff.mpr hderives, rfl⟩, rfl⟩

theorem accepts_literalValue :
    Accepts room literalValue fun ts v => ∃ l, DerivesLiteral ts l ∧ v = l.toValue :=
  accepts_literal.map Literal.toValue

/-- A list element is a scalar together with where its token starts. -/
theorem accepts_element :
    Accepts room element fun ts e =>
      DerivesLiteral ts e.1 ∧ ∃ t, ts = [t] ∧ e.2 = t.span.start := by
  intro s e s' hroom
  rw [element, bind_eq_ok_iff]
  constructor
  · rintro ⟨start, t, hstart, hrest⟩
    cases hstart
    rcases bind_eq_ok_iff.mp hrest with ⟨l, u, hl, hpure⟩
    cases hpure
    rcases (accepts_literal _ _ _ hroom).mp hl with ⟨used, htook, hderives⟩
    rcases derivesLiteral_singleton hderives with ⟨u, rfl, -⟩
    exact ⟨[u], htook, hderives, u, rfl, by rw [State.position, htook.current_eq]⟩
  · rintro ⟨used, htook, hderives, t, rfl, hstart⟩
    refine ⟨s.position, s, rfl, bind_eq_ok_iff.mpr ⟨e.1, s', ?_, ?_⟩⟩
    · exact (accepts_literal _ _ _ hroom).mpr ⟨[t], htook, hderives⟩
    · rw [State.position, htook.current_eq, ← hstart]
      rfl

theorem foldElements_eq_ok_iff {opening : Token} {elements : List (Literal × Source.Position)}
    {v : Value} :
    foldElements opening elements = .ok v ↔ Literal.fold (elements.map Prod.fst) = .ok v := by
  rw [foldElements]
  cases Literal.fold (elements.map Prod.fst) with
  | ok w =>
      constructor
      · intro h
        cases h
        rfl
      · intro h
        cases h
        rfl
  | error fault =>
      -- Either cause turns into a fault of its own.
      constructor
      · intro h
        cases fault <;> cases h
      · intro h
        cases h

/-- Tokens that write a list, as the grammar has it. -/
def DerivesList (ts : List Token) (v : Value) : Prop :=
  ∃ opening us ls closing, ts = opening :: us ++ [closing] ∧ opening.kind = .openBracket ∧
    Separated DerivesLiteral us ls ∧ Literal.Gathers ls v ∧ closing.kind = .closeBracket

/-- A list is taken from its opening to its closing bracket. -/
theorem accepts_list : Accepts room list DerivesList := by
  have hne : ∀ ts (e : Literal × Source.Position),
      (DerivesLiteral ts e.1 ∧ ∃ t, ts = [t] ∧ e.2 = t.span.start) → ts ≠ [] := by
    rintro ts e ⟨-, t, rfl, -⟩
    exact List.cons_ne_nil _ _
  -- Folding comes after the closing bracket and takes nothing.
  have hfold : ∀ opening (elements : List (Literal × Source.Position)),
      Accepts room (look fun _ => foldElements opening elements)
        fun ts v => ts = [] ∧ Literal.fold (elements.map Prod.fst) = .ok v := by
    rintro opening elements s v s' -
    rw [look_eq_ok_iff, foldElements_eq_ok_iff]
    constructor
    · rintro ⟨hv, rfl⟩
      exact ⟨[], took_nil_iff.mpr rfl, rfl, hv⟩
    · rintro ⟨used, htook, rfl, hv⟩
      exact ⟨hv, took_nil_iff.mp htook⟩
  refine (accepts_expect_bind (by decide) fun opening =>
    (acceptsBefore_separated (by decide) accepts_element hne).bind_expect (by decide)
      fun elements _ => hfold opening elements).congr (fun ts v => ?_)
  constructor
  · rintro ⟨opening, vs, rfl, hopening, elements, us, closing, ws, rfl, hsep, hclosing, rfl, hv⟩
    have hls : Separated DerivesLiteral us (elements.map Prod.fst) :=
      hsep.map fun ts e he => he.1
    exact ⟨opening, us, _, closing, rfl, hopening, hls, (Literal.fold_eq_ok_iff.mp hv).2, hclosing⟩
  · rintro ⟨opening, us, ls, closing, rfl, hopening, hsep, hgathers, hclosing⟩
    -- The parser keeps where each element starts, which the grammar leaves out.
    have hstarts : ∀ ts l, DerivesLiteral ts l →
        ∃ e : Literal × Source.Position,
          (DerivesLiteral ts e.1 ∧ ∃ t, ts = [t] ∧ e.2 = t.span.start) ∧ e.1 = l := by
      intro ts l hl
      rcases derivesLiteral_singleton hl with ⟨t, rfl, -⟩
      exact ⟨(l, t.span.start), ⟨hl, t, rfl, rfl⟩, rfl⟩
    rcases hsep.exists_map hstarts with ⟨elements, helements, rfl⟩
    refine ⟨opening, us ++ [closing], rfl, hopening, elements, us, closing, [], rfl, helements,
      hclosing, rfl, ?_⟩
    exact Literal.fold_eq_ok_iff.mpr ⟨hsep.ne_nil, hgathers⟩

end Parser

end Annotations
