import Annotations.Proofs.Parser.Lists
import Annotations.Proofs.Tag.Nesting
import Annotations.Tag.Reading
import Mathlib.Data.List.TakeWhile

/-!
# The Parser Accepts the Grammar

Every rule of the parser accepts the tokens that the grammar derives, with the
tree that they derive, as long as maps do not nest too deeply. The rules are
taken in the order in which they build on one another, and each has one lemma.

Maps are the only rule that comes back to itself. The parser bounds that
recursion by the room for further maps, and so does the proof: with room for
`n` maps, what is accepted are the derivations of values that nest no deeper
than `n`.

The result about whole inputs is `Tag.ofTokens_eq_ok_iff_derivesTag`. Tokens after
the first one that ends the input play no part in it, and a list of tokens that
lacks such a token counts as if it had one.

## Main definitions

* `DerivesParens`: Tokens that write entries between parentheses.

## Theorems

* `accepts_valueWith`, `accepts_entryWith`: Values and entries, where a rule for
  what they contain is given.
* `accepts_mapWithin`, `accepts_value`: Maps, and values that contain them.
* `accepts_attributes`, `accepts_tag`: The parts of a tag.
* `exists_wholeTag_iff`: A whole input, from any state of the parser.
* `Tag.ofTokens_eq_ok_iff_derivesTag`: Tokens make up a tag exactly if the grammar
  derives it from those before the end of the input.
-/

namespace Annotations

open Grammar

namespace Parser

open State

variable {room : Nat}

/-- A value is a scalar, a list, or what the given rule for maps accepts. -/
theorem accepts_valueWith {map : Parser Value} {R : List Token → Value → Prop}
    (hmap : Accepts room map R)
    (hhead : ∀ ts v, R ts v → ∃ t rest, ts = t :: rest ∧ t.kind = .openCurly) :
    Accepts room (valueWith map) fun ts v =>
      (∃ l, DerivesLiteral ts l ∧ v = l.toValue) ∨ DerivesList ts v ∨ R ts v := by
  intro s v s' hroom
  rw [valueWith]
  constructor
  · intro h
    split at h
    -- All five kinds of scalars go to one rule.
    iterate 5
      rcases (accepts_literalValue s v s' hroom).mp h with ⟨used, htook, hl⟩
      exact ⟨used, htook, Or.inl hl⟩
    · rcases (accepts_list s v s' hroom).mp h with ⟨used, htook, hlist⟩
      exact ⟨used, htook, Or.inr (Or.inl hlist)⟩
    · rcases (hmap s v s' hroom).mp h with ⟨used, htook, hR⟩
      exact ⟨used, htook, Or.inr (Or.inr hR)⟩
    · cases h
  -- The first token tells which of the rules is taken.
  · rintro ⟨used, htook, ⟨l, hl, rfl⟩ | hlist | hR⟩
    · have hok := (accepts_literalValue s l.toValue s' hroom).mpr ⟨used, htook, l, hl, rfl⟩
      cases hl with
      | string h | integer h _ | float h _ _ | trueWord h | falseWord h =>
          simp only [htook.kind_eq, h, hok]
    · have hok := (accepts_list s v s' hroom).mpr ⟨used, htook, hlist⟩
      rcases hlist with ⟨opening, us, ls, closing, rfl, hopening, -⟩
      simp only [htook.kind_eq, hopening, hok]
    · have hok := (hmap s v s' hroom).mpr ⟨used, htook, hR⟩
      rcases hhead used v hR with ⟨t, rest, rfl, ht⟩
      simp only [htook.kind_eq, ht, hok]

/-- An entry is a name, an equals sign and a value. -/
theorem accepts_entryWith {value : Parser Value} {R : List Token → Value → Prop}
    (hvalue : Accepts room value R) :
    Accepts room (entryWith value) fun ts e => ∃ name sign us v, ts = name :: sign :: us ∧
      name.kind = .identifier ∧ sign.kind = .assignment ∧ R us v ∧ e = ⟨name.text, v⟩ := by
  have hname : Token.Kind.identifier ≠ .endOfInput := by decide
  have hsign : Token.Kind.assignment ≠ .endOfInput := by decide
  refine (accepts_expect_bind hname fun name => accepts_expect_bind hsign fun _ =>
    hvalue.map (fun v => (⟨name.text, v⟩ : Entry))).congr (fun ts e => ?_)
  constructor
  · rintro ⟨name, vs, rfl, hname, sign, us, rfl, hsign, v, hv, rfl⟩
    exact ⟨name, sign, us, v, rfl, hname, hsign, hv, rfl⟩
  · rintro ⟨name, sign, us, v, rfl, hname, hsign, hv, rfl⟩
    exact ⟨name, _, rfl, hname, sign, us, rfl, hsign, v, hv, rfl⟩

theorem ne_nil_of_head {P : Token → Prop} {ts : List Token}
    (h : ∃ t rest, ts = t :: rest ∧ P t) : ts ≠ [] := by
  rcases h with ⟨t, rest, rfl, -⟩
  exact List.cons_ne_nil _ _

/-- Entries between braces, without the count of open maps. -/
theorem accepts_braced {entry : Parser Entry} {R : List Token → Entry → Prop}
    (hentry : Accepts room entry R)
    (hhead : ∀ ts e, R ts e → ∃ t rest, ts = t :: rest ∧ t.kind = .identifier) :
    Accepts room (do
        let _ ← expect .openCurly
        let entries ← unlessAt .closeCurly (separated entry)
        let _ ← expect .closeCurly
        return entries) fun ts es =>
      ∃ opening us closing, ts = opening :: us ++ [closing] ∧ opening.kind = .openCurly ∧
        (us = [] ∧ es = [] ∨ Separated R us es) ∧ closing.kind = .closeCurly := by
  have hne : ∀ ts e, R ts e → ts ≠ [] := fun ts e he => ne_nil_of_head (hhead ts e he)
  -- A name is not a closing brace, so the entries are not skipped over by mistake.
  have hitems : AcceptsBefore .closeCurly room (unlessAt .closeCurly (separated entry))
      fun ts es => ts = [] ∧ es = [] ∨ Separated R ts es := by
    refine acceptsBefore_unlessAt (acceptsBefore_separated (by decide) hentry hne) ?_
    intro ts es hsep
    refine hsep.head fun ts e he => ?_
    rcases hhead ts e he with ⟨t, rest, rfl, ht⟩
    exact ⟨t, rest, rfl, by rw [ht]; decide⟩
  refine (accepts_expect_bind (by decide) fun _ =>
    hitems.bind_expect (by decide) fun es _ => accepts_pure es).congr (fun ts es => ?_)
  constructor
  · rintro ⟨opening, vs, rfl, hopening, es', us, closing, ws, rfl, hus, hclosing, rfl, rfl⟩
    exact ⟨opening, us, closing, rfl, hopening, hus, hclosing⟩
  · rintro ⟨opening, us, closing, rfl, hopening, hus, hclosing⟩
    exact ⟨opening, _, rfl, hopening, es, us, closing, [], rfl, hus, hclosing, rfl, rfl⟩

/-- Counting a map as open and as closed again makes no difference to the tokens
    that are taken in between. -/
theorem took_opened_iff {s s' : State} {used : List Token} :
    s.Took used s' ↔
      ∃ t, State.Took { s with depth := s.depth + 1 } used t ∧
        s' = { t with depth := t.depth - 1 } := by
  constructor
  · rintro ⟨hrest, hstate, hinside⟩
    -- The state in between is the one at the end with the map still counted.
    refine ⟨{ s' with depth := s.depth + 1 }, ⟨hrest, ?_, hinside⟩, ?_⟩
    · rw [hstate]
    · rw [hstate]
      rfl
  · rintro ⟨t, ⟨hrest, hstate, hinside⟩, rfl⟩
    refine ⟨hrest, ?_, hinside⟩
    rw [hstate]
    rfl

/-- A map with room for one more is what stands between its braces. -/
theorem mapWithin_succ_eq_ok_iff {room : Nat} {s s' : State} {v : Value} :
    mapWithin (room + 1) s = .ok v s' ↔
      ∃ es t, (do
          let _ ← expect .openCurly
          let entries ← unlessAt .closeCurly
            (separated (entryWith (valueWith (mapWithin room))))
          let _ ← expect .closeCurly
          return entries : Parser (List Entry)) { s with depth := s.depth + 1 } = .ok es t ∧
        s' = { t with depth := t.depth - 1 } ∧ v = .map es := by
  rw [mapWithin]
  simp only [bind_eq_ok_iff]
  constructor
  -- The states of the two sequences are the same but for the count.
  · rintro ⟨_, _, hopened, a, b, hopening, es, d, hes, f, g, hclosing, _, _, hleft, hpure⟩
    cases hopened
    cases hleft
    cases hpure
    exact ⟨es, g, ⟨a, b, hopening, es, d, hes, f, g, hclosing, rfl⟩, rfl, rfl⟩
  · rintro ⟨es, t, ⟨a, b, hopening, es', d, hes, f, g, hclosing, hpure⟩, rfl, rfl⟩
    cases hpure
    exact ⟨(), _, rfl, a, b, hopening, es, d, hes, f, t, hclosing, (), _, rfl, rfl⟩

theorem toValue_nesting (l : Literal) : l.toValue.nesting = 0 := by
  cases l <;> rfl

theorem gathers_nesting {ls : List Literal} {v : Value} (h : Literal.Gathers ls v) :
    v.nesting = 0 := by
  cases h <;> rfl

/-- Values in the room that the given rule for maps leaves. -/
theorem accepts_valueWith_room {map : Parser Value} {room : Nat}
    (hmap : Accepts room map fun ts v =>
      DerivesValue ts v ∧ v.nesting ≤ room ∧ ∃ es, v = .map es) :
    Accepts room (valueWith map) fun ts v => DerivesValue ts v ∧ v.nesting ≤ room := by
  refine (accepts_valueWith hmap ?_).congr (fun ts v => ?_)
  · rintro ts v ⟨hv, -, es, rfl⟩
    rcases derivesValue_map_iff.mp hv with ⟨opening, us, closing, rfl, hopening, -⟩
    exact ⟨opening, _, rfl, hopening⟩
  constructor
  · rintro (⟨l, hl, rfl⟩ | ⟨opening, us, ls, closing, rfl, hopening, hus, hgathers, hclosing⟩ |
      ⟨hv, hroom, -⟩)
    · exact ⟨.literal hl (Literal.stands_iff.mpr rfl),
        by rw [toValue_nesting]; exact Nat.zero_le room⟩
    · exact ⟨.list hopening hus hgathers hclosing,
        by rw [gathers_nesting hgathers]; exact Nat.zero_le room⟩
    · exact ⟨hv, hroom⟩
  · rintro ⟨hv, hroom⟩
    cases hv with
    | literal hl hstands => exact Or.inl ⟨_, hl, Literal.stands_iff.mp hstands⟩
    | list hopening hus hgathers hclosing =>
        exact Or.inr (Or.inl ⟨_, _, _, _, rfl, hopening, hus, hgathers, hclosing⟩)
    | emptyMap hopening hclosing =>
        exact Or.inr (Or.inr ⟨.emptyMap hopening hclosing, hroom, _, rfl⟩)
    | map hopening hus hclosing =>
        exact Or.inr (Or.inr ⟨.map hopening hus hclosing, hroom, _, rfl⟩)

/-- Entries whose values the given rule accepts in some room. -/
theorem accepts_entryWith_room {value : Parser Value} {room : Nat}
    (hvalue : Accepts room value fun ts v => DerivesValue ts v ∧ v.nesting ≤ room) :
    Accepts room (entryWith value) fun ts e => DerivesEntry ts e ∧ e.value.nesting ≤ room := by
  refine (accepts_entryWith hvalue).congr (fun ts e => ?_)
  constructor
  · rintro ⟨name, sign, us, v, rfl, hname, hsign, ⟨hv, hroom⟩, rfl⟩
    exact ⟨.mk hname hsign hv, hroom⟩
  · rintro ⟨he, hroom⟩
    cases he with
    | mk hname hsign hv => exact ⟨_, _, _, _, rfl, hname, hsign, ⟨hv, hroom⟩, rfl⟩

/-- In the room for `n` maps, the parser accepts the maps that nest no deeper
    than `n`. -/
theorem accepts_mapWithin (room : Nat) :
    Accepts room (mapWithin room) fun ts v =>
      DerivesValue ts v ∧ v.nesting ≤ room ∧ ∃ es, v = .map es := by
  induction room with
  | zero =>
      rintro s v s' -
      constructor
      · intro h
        cases h
      · rintro ⟨used, -, -, hroom, es, rfl⟩
        exact absurd hroom (Nat.not_succ_le_zero _)
  | succ room ih =>
      -- What the map contains is read in the room for one map less.
      have hentry := accepts_entryWith_room (accepts_valueWith_room ih)
      have hbraced := accepts_braced hentry fun ts e he => he.1.head
      intro s v s' hroom
      -- Counting the map as open takes exactly that from the room.
      have hinner : State.room { s with depth := s.depth + 1 } = room := by
        rw [State.room, Nat.sub_add_eq]
        exact Nat.sub_eq_of_eq_add hroom
      rw [mapWithin_succ_eq_ok_iff]
      constructor
      · rintro ⟨es, t, hes, hs', rfl⟩
        rcases (hbraced _ es t hinner).mp hes with
          ⟨used, htook, opening, us, closing, rfl, hopening, hus, hclosing⟩
        refine ⟨_, took_opened_iff.mpr ⟨t, htook, hs'⟩, ?_⟩
        -- A map without entries needs room for itself alone.
        rcases hus with ⟨rfl, rfl⟩ | hsep
        · exact ⟨.emptyMap hopening hclosing, Nat.succ_le_succ (Nat.zero_le room), [], rfl⟩
        · rcases separated_and_iff.mp hsep with ⟨hsep, hroom⟩
          have hnesting := Nat.succ_le_succ (nestingOf_le_iff.mpr hroom)
          exact ⟨.map hopening hsep hclosing, hnesting, es, rfl⟩
      · rintro ⟨used, htook, hv, hroom, es, rfl⟩
        rcases took_opened_iff.mp htook with ⟨t, htook, hs'⟩
        refine ⟨es, t, (hbraced _ es t hinner).mpr ⟨used, htook, ?_⟩, hs', rfl⟩
        rw [Value.nesting_map, Nat.succ_le_succ_iff, nestingOf_le_iff] at hroom
        rcases derivesValue_map_iff.mp hv with ⟨opening, us, closing, rfl, hopening, hus, hclosing⟩
        refine ⟨opening, us, closing, rfl, hopening, ?_, hclosing⟩
        -- The bound on the map is a bound on each of its entries.
        rcases hus with hempty | hsep
        · exact Or.inl hempty
        · exact Or.inr (separated_and_iff.mpr ⟨hsep, hroom⟩)

theorem accepts_value : Accepts room value fun ts v => DerivesValue ts v ∧ v.nesting ≤ room := by
  refine accepts_valueWith_room ?_
  intro s v s' hroom
  rw [map, hroom]
  exact accepts_mapWithin room s v s' hroom

theorem refuseIf_eq_ok_iff {condition : State → Bool} {cause : State → Fault.Cause} {s s' : State}
    {u : Unit} : refuseIf condition cause s = .ok u s' ↔ condition s = false ∧ s' = s := by
  rw [refuseIf]
  cases condition s with
  | false =>
      constructor
      · intro h
        cases h
        exact ⟨rfl, rfl⟩
      · rintro ⟨-, rfl⟩
        rfl
  | true =>
      constructor
      · intro h
        cases h
      · rintro ⟨h, -⟩
        cases h

/-- A check of the state in front of a parser that would fail where the check
    does. -/
theorem accepts_refuseIf_bind {α : Type} {condition : State → Bool} {cause : State → Fault.Cause}
    {p : Parser α} {R : List Token → α → Prop} (hp : Accepts room p R)
    (hfree : ∀ s used s' a, s.Took used s' → R used a → condition s = false) :
    Accepts room (refuseIf condition cause >>= fun _ => p) R := by
  intro s a s' hroom
  rw [bind_eq_ok_iff, ← hp s a s' hroom]
  constructor
  · rintro ⟨_, t, hcheck, hpa⟩
    rcases refuseIf_eq_ok_iff.mp hcheck with ⟨-, rfl⟩
    exact hpa
  · intro hpa
    -- Where the parser succeeds, the check cannot have failed.
    rcases (hp s a s' hroom).mp hpa with ⟨used, htook, hR⟩
    exact ⟨(), s, refuseIf_eq_ok_iff.mpr ⟨hfree s used s' a htook hR, rfl⟩, hpa⟩

/-- Tokens that write entries between parentheses, with maps that nest no deeper
    than the room allows. -/
def DerivesParens (room : Nat) (ts : List Token) (es : List Entry) : Prop :=
  ∃ opening us closing, ts = opening :: us ++ [closing] ∧ opening.kind = .openParen ∧
    Separated DerivesEntry us es ∧ nestingOf es ≤ room ∧ closing.kind = .closeParen

/-- The entries of a tag are taken with their parentheses. The check for an empty
    list makes no difference here, since an entry starts with its name. -/
theorem accepts_attributes : Accepts room attributes (DerivesParens room) := by
  have hentry : Accepts room entry fun ts e => DerivesEntry ts e ∧ e.value.nesting ≤ room :=
    accepts_entryWith_room accepts_value
  have hhead : ∀ ts e, (DerivesEntry ts e ∧ e.value.nesting ≤ room) →
      ∃ t rest, ts = t :: rest ∧ t.kind = .identifier := fun ts e he => he.1.head
  have hne : ∀ ts e, (DerivesEntry ts e ∧ e.value.nesting ≤ room) → ts ≠ [] :=
    fun ts e he => ne_nil_of_head (hhead ts e he)
  have hentries : AcceptsBefore .closeParen room entries
      (Separated fun ts e => DerivesEntry ts e ∧ e.value.nesting ≤ room) :=
    acceptsBefore_separated (by decide) hentry hne
  -- The closing parenthesis is what tells that no comma follows.
  have hclosed := hentries.bind_expect (by decide) fun es _ => accepts_pure es
  refine (accepts_expect_bind (by decide) fun _ => accepts_refuseIf_bind hclosed ?_).congr
    (fun ts es => ?_)
  -- The list of entries starts with the name of its first one.
  · rintro s used s' es htook ⟨es', us, closing, vs, rfl, hsep, -⟩
    rcases hsep.head hhead with ⟨t, rest, rfl, ht⟩
    simp only [htook.kind_eq, ht, reduceCtorEq, decide_false]
  constructor
  · rintro ⟨opening, vs, rfl, hopening, es', us, closing, ws, rfl, hsep, hclosing, rfl, rfl⟩
    rcases separated_and_iff.mp hsep with ⟨hsep, hroom⟩
    exact ⟨opening, us, closing, rfl, hopening, hsep, nestingOf_le_iff.mpr hroom, hclosing⟩
  · rintro ⟨opening, us, closing, rfl, hopening, hsep, hroom, hclosing⟩
    exact ⟨opening, _, rfl, hopening, es, us, closing, [], rfl,
      separated_and_iff.mpr ⟨hsep, nestingOf_le_iff.mp hroom⟩, hclosing, rfl, rfl⟩

/-- A bracket follows its hash sign at once, or nothing is accepted. -/
theorem accepts_adjacent {hash opening : Token} :
    Accepts room (adjacent hash opening) fun ts _ =>
      ts = [] ∧ opening.span.start = hash.span.stop := by
  rintro s u s' -
  rw [adjacent]
  by_cases hspan : opening.span.start = hash.span.stop
  · rw [if_pos hspan]
    constructor
    · intro h
      cases h
      exact ⟨[], took_nil_iff.mpr rfl, rfl, hspan⟩
    · rintro ⟨used, htook, rfl, -⟩
      rw [took_nil_iff.mp htook]
  · rw [if_neg hspan]
    constructor
    · intro h
      cases h
    · rintro ⟨used, -, -, h⟩
      exact absurd h hspan

/-- The entries of a tag may be left out together with their parentheses. -/
theorem derivesAttributes_iff {ts : List Token} {es : List Entry} :
    DerivesAttributes ts es ∧ nestingOf es ≤ room ↔
      ts = [] ∧ es = [] ∨ DerivesParens room ts es := by
  constructor
  · rintro ⟨h, hroom⟩
    cases h with
    | none => exact Or.inl ⟨rfl, rfl⟩
    | some hopening hsep hclosing =>
        exact Or.inr ⟨_, _, _, rfl, hopening, hsep, hroom, hclosing⟩
  · rintro (⟨rfl, rfl⟩ | ⟨opening, us, closing, rfl, hopening, hsep, hroom, hclosing⟩)
    · exact ⟨.none, Nat.zero_le room⟩
    · exact ⟨.some hopening hsep hclosing, hroom⟩

/-- A tag is taken from its hash sign to its closing bracket. -/
theorem accepts_tag : Accepts room tag fun ts t => DerivesTag ts t ∧ t.nesting ≤ room := by
  -- In front of the closing bracket, no parenthesis means no entries.
  have hattrs : AcceptsBefore .closeBracket room (onlyAt .openParen attributes) fun ts es =>
      ts = [] ∧ es = [] ∨ DerivesParens room ts es := by
    refine acceptsBefore_onlyAt (by decide) accepts_attributes ?_
    rintro ts es ⟨opening, us, closing, rfl, hopening, -⟩
    exact ⟨opening, _, rfl, hopening⟩
  have hhash : Token.Kind.hash ≠ .endOfInput := by decide
  have hopening : Token.Kind.openBracket ≠ .endOfInput := by decide
  have hidentity : Token.Kind.identifier ≠ .endOfInput := by decide
  refine (accepts_expect_bind hhash fun hash => accepts_expect_bind hopening fun opening =>
    accepts_adjacent.bind fun _ => accepts_expect_bind hidentity fun identity =>
      hattrs.bind_expect (by decide) fun es _ =>
        accepts_pure (⟨identity.text, es⟩ : Tag)).congr (fun ts t => ?_)
  constructor
  · rintro ⟨hash, _, rfl, hhash, opening, _, rfl, hopening, _, _, _, rfl, ⟨rfl, hspan⟩, identity, _,
      rfl, hidentity, es, us, closing, _, rfl, hus, hclosing, rfl, rfl⟩
    rcases derivesAttributes_iff.mpr hus with ⟨hattrs, hroom⟩
    exact ⟨.mk hhash hopening hspan hidentity hattrs hclosing, hroom⟩
  · rintro ⟨ht, hroom⟩
    cases ht with
    | mk hhash hopening hspan hidentity hattrs hclosing =>
        exact ⟨_, _, rfl, hhash, _, _, rfl, hopening, (), [], _, rfl, ⟨rfl, hspan⟩, _, _, rfl,
          hidentity, _, _, _, [], rfl, derivesAttributes_iff.mp ⟨hattrs, hroom⟩, hclosing, rfl, rfl⟩

/-- A tag is the whole input if the input ends after it. -/
theorem wholeTag_eq_ok_iff {s s' : State} {t : Tag} :
    wholeTag s = .ok t s' ↔ tag s = .ok t s' ∧ s'.kind = .endOfInput := by
  rw [wholeTag, bind_eq_ok_iff]
  constructor
  · rintro ⟨result, u, htag, hrest⟩
    rcases bind_eq_ok_iff.mp hrest with ⟨_, v, hcheck, hpure⟩
    cases hpure
    rcases refuseIf_eq_ok_iff.mp hcheck with ⟨hkind, rfl⟩
    exact ⟨htag, of_decide_eq_true (by simpa using hkind)⟩
  · rintro ⟨htag, hkind⟩
    refine ⟨t, s', htag, bind_eq_ok_iff.mpr ⟨(), s', refuseIf_eq_ok_iff.mpr ⟨?_, rfl⟩, rfl⟩⟩
    simp only [hkind, ne_eq, not_true, decide_false]

namespace State

/-- Tokens are taken up to the end of the input exactly if they are those before
    the first token that ends it. -/
theorem took_all_iff {s : State} {used : List Token} :
    (∃ s', s.Took used s' ∧ s'.kind = .endOfInput) ↔
      used = s.rest.takeWhile (·.kind ≠ .endOfInput) := by
  constructor
  · rintro ⟨s', ⟨hrest, hstate, hinside⟩, hkind⟩
    rw [hrest, List.takeWhile_append_of_pos (by simpa using hinside)]
    -- What is left starts with a token that ends the input, or is empty.
    have hstop : s'.rest.takeWhile (·.kind ≠ .endOfInput) = [] := by
      rcases hmore : s'.rest with _ | ⟨t, more⟩
      · rfl
      · rw [State.kind, current, hmore, List.headD_cons] at hkind
        rw [List.takeWhile_cons_of_neg (by simp [hkind])]
    rw [hstop, List.append_nil]
  · rintro rfl
    refine ⟨{ s with rest := s.rest.dropWhile (·.kind ≠ .endOfInput) }, ⟨?_, rfl, ?_⟩, ?_⟩
    · exact List.takeWhile_append_dropWhile.symm
    · intro t ht
      simpa using List.mem_takeWhile_imp ht
    · show ((s.rest.dropWhile (·.kind ≠ .endOfInput)).headD s.stop).kind = .endOfInput
      have hhead := List.head?_dropWhile_not (fun t : Token => decide (t.kind ≠ .endOfInput)) s.rest
      rcases hmore : s.rest.dropWhile (·.kind ≠ .endOfInput) with _ | ⟨t, more⟩
      · rw [hmore]
        exact s.stop_kind
      · rw [hmore] at hhead ⊢
        simpa using hhead

/-- A token at the end of the list that ends the input belongs to what is read
    no more than one that is added. -/
theorem ofTokens_takeWhile (tokens : List Token) (label : String) (maxDepth : Nat) :
    (ofTokens tokens label maxDepth).rest.takeWhile (·.kind ≠ .endOfInput) =
      tokens.takeWhile (·.kind ≠ .endOfInput) := by
  rw [ofTokens]
  split
  · next hlast => rw [List.getLast?_eq_none_iff.mp hlast]
  · next last hlast =>
      rcases List.getLast?_eq_some_iff.mp hlast with ⟨before, rfl⟩
      split
      · next hkind =>
          have hstop : [last].takeWhile (·.kind ≠ .endOfInput) = [] :=
            List.takeWhile_cons_of_neg (by simp [hkind])
          -- The token at the end is dropped in one list and stops the run in the other.
          rw [List.dropLast_concat, List.takeWhile_append, hstop]
          split
          · next hall =>
              rw [List.append_nil]
              exact (List.takeWhile_prefix _).eq_of_length hall
          · rfl
      · rfl

theorem ofTokens_room (tokens : List Token) (label : String) (maxDepth : Nat) :
    (ofTokens tokens label maxDepth).room = maxDepth := by
  rw [ofTokens]
  split
  · rfl
  · split <;> rfl

end State

/-- A tag is the whole input exactly if the grammar derives it from the tokens
    before the first one that ends the input, in the room for maps that there is. -/
theorem exists_wholeTag_iff {s : State} {t : Tag} :
    (∃ s', wholeTag s = .ok t s') ↔
      DerivesTag (s.rest.takeWhile (·.kind ≠ .endOfInput)) t ∧ t.nesting ≤ s.room := by
  simp only [wholeTag_eq_ok_iff, accepts_tag s t _ rfl]
  constructor
  · rintro ⟨s', ⟨used, htook, hderives⟩, hkind⟩
    rw [← took_all_iff.mp ⟨s', htook, hkind⟩]
    exact hderives
  · intro hderives
    rcases took_all_iff.mpr rfl with ⟨s', htook, hkind⟩
    exact ⟨s', ⟨_, htook, hderives⟩, hkind⟩

end Parser

theorem Tag.ofTokens_eq_ok_iff {tokens : List Token} {label : String} {maxDepth : Nat} {t : Tag} :
    Tag.ofTokens tokens label maxDepth = .ok t ↔
      ∃ s', Parser.wholeTag (.ofTokens tokens label maxDepth) = .ok t s' := by
  rw [Tag.ofTokens]
  cases Parser.wholeTag (.ofTokens tokens label maxDepth) with
  | ok u s' => simp
  | error fault s' => simp

/-- Tokens make up a tag exactly if the grammar derives that tag from those before
    the first one that ends the input, and no more than `maxDepth` maps lie inside
    one another. Neither the label nor anything after that token matters. -/
theorem Tag.ofTokens_eq_ok_iff_derivesTag (tokens : List Token) (label : String) (maxDepth : Nat)
    (t : Tag) :
    Tag.ofTokens tokens label maxDepth = .ok t ↔
      DerivesTag (tokens.takeWhile (·.kind ≠ .endOfInput)) t ∧ t.nesting ≤ maxDepth := by
  rw [Tag.ofTokens_eq_ok_iff, Parser.exists_wholeTag_iff,
    Parser.State.ofTokens_takeWhile, Parser.State.ofTokens_room]

end Annotations
