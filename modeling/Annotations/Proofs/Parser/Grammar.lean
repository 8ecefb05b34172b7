import Annotations.Number.Reading
import Annotations.Proofs.Literal.Fold
import Annotations.Token.Basic

/-!
# The Grammar of Annotations

The grammar as a relation between lists of tokens and trees, one constructor for
each way to write something. Nothing here decides on a current token, counts
open maps or moves along an input: a derivation says which tokens a tree is made
of, and that is all.

What the tokens have to satisfy beyond their order stands in the constructors.
The text of a number has to read as a number of its type, the literals of a list
have to make up a list value, and the bracket of a tag has to start where the
hash sign ends. How deeply maps may nest is not part of the grammar.

## Main definitions

* `Grammar.Separated`: Items with commas between neighbours.
* `Grammar.DerivesLiteral`: A token that writes a scalar.
* `Grammar.DerivesValue`, `Grammar.DerivesEntry`: Values and named values.
* `Grammar.DerivesAttributes`, `Grammar.DerivesTag`: The parts of a tag.

## Theorems

* `Grammar.separated_and_iff`: A condition on each item is one on all of them.
* `Grammar.Separated.map`: Items seen through a function.
* `Grammar.DerivesEntry.head`: An entry starts with its name.
* `Grammar.derivesValue_map_iff`: What derives a map is between braces.
-/

namespace Annotations

open Number

namespace Grammar

section Separated

variable {α β : Type}

/-- One or more items with commas between neighbours. -/
inductive Separated (item : List Token → α → Prop) : List Token → List α → Prop where
  | one {ts : List Token} {a : α} : item ts a → Separated item ts [a]
  | more {ts rest : List Token} {comma : Token} {a : α} {as : List α} :
      item ts a → comma.kind = .comma → Separated item rest as →
      Separated item (ts ++ comma :: rest) (a :: as)

theorem Separated.ne_nil {item : List Token → α → Prop} {ts : List Token} {as : List α}
    (h : Separated item ts as) : as ≠ [] := by
  cases h with
  | one _ => exact List.cons_ne_nil _ _
  | more _ _ _ => exact List.cons_ne_nil _ _

/-- Items of which each is another item seen through a function. -/
theorem Separated.map {item : List Token → α → Prop} {other : List Token → β → Prop} {f : α → β}
    (hf : ∀ ts a, item ts a → other ts (f a)) {ts : List Token} {as : List α}
    (h : Separated item ts as) : Separated other ts (as.map f) := by
  induction h with
  | one ha => exact .one (hf _ _ ha)
  | more ha hcomma _ ih => exact .more (hf _ _ ha) hcomma ih

/-- Items that are images of other items under a function come from a list of
    those. -/
theorem Separated.exists_map {item : List Token → α → Prop} {other : List Token → β → Prop}
    {f : α → β} (hf : ∀ ts b, other ts b → ∃ a, item ts a ∧ f a = b) {ts : List Token}
    {bs : List β} (h : Separated other ts bs) : ∃ as, Separated item ts as ∧ as.map f = bs := by
  induction h with
  | one hb =>
      rcases hf _ _ hb with ⟨a, ha, rfl⟩
      exact ⟨[a], .one ha, rfl⟩
  | more hb hcomma _ ih =>
      rcases hf _ _ hb with ⟨a, ha, rfl⟩
      rcases ih with ⟨as, has, rfl⟩
      exact ⟨a :: as, .more ha hcomma has, rfl⟩

/-- A condition on each item is a condition on all of them. -/
theorem separated_and_iff {item : List Token → α → Prop} {P : α → Prop} {ts : List Token}
    {as : List α} :
    Separated (fun ts a => item ts a ∧ P a) ts as ↔ Separated item ts as ∧ ∀ a ∈ as, P a := by
  constructor
  · intro h
    induction h with
    | one ha => exact ⟨.one ha.1, List.forall_mem_singleton.mpr ha.2⟩
    | more ha hcomma _ ih =>
        exact ⟨.more ha.1 hcomma ih.1, List.forall_mem_cons.mpr ⟨ha.2, ih.2⟩⟩
  · rintro ⟨h, hall⟩
    induction h with
    | one ha => exact .one ⟨ha, List.forall_mem_singleton.mp hall⟩
    | more ha hcomma _ ih =>
        rw [List.forall_mem_cons] at hall
        exact .more ⟨ha, hall.1⟩ hcomma (ih hall.2)

/-- Items that start in some way make up a list that starts in this way. -/
theorem Separated.head {item : List Token → α → Prop} {P : Token → Prop}
    (hitem : ∀ ts a, item ts a → ∃ t rest, ts = t :: rest ∧ P t) {ts : List Token} {as : List α}
    (h : Separated item ts as) : ∃ t rest, ts = t :: rest ∧ P t := by
  cases h with
  | one ha => exact hitem _ _ ha
  | more ha _ _ =>
      rcases hitem _ _ ha with ⟨t, rest, rfl, ht⟩
      exact ⟨t, _, rfl, ht⟩

end Separated

/-- A token that writes a scalar. -/
inductive DerivesLiteral : List Token → Literal → Prop where
  | string {t : Token} : t.kind = .string → DerivesLiteral [t] (.string t.text)
  | integer {t : Token} {n : Int64} :
      t.kind = .integer → readInteger? t.text.toList = some n → DerivesLiteral [t] (.integer n)
  | float {t : Token} {x : Binary64} :
      t.kind = .float → readBinary64? t.text.toList = some x → x.isFinite = true →
      DerivesLiteral [t] (.float x)
  | trueWord {t : Token} : t.kind = .trueWord → DerivesLiteral [t] (.bool true)
  | falseWord {t : Token} : t.kind = .falseWord → DerivesLiteral [t] (.bool false)

mutual

/-- Tokens that write a value: a scalar, one or more scalars between brackets
    that make up a list, or entries between braces, of which there may be none. -/
inductive DerivesValue : List Token → Value → Prop where
  | literal {ts : List Token} {l : Literal} {v : Value} :
      DerivesLiteral ts l → l.Stands v → DerivesValue ts v
  | list {opening closing : Token} {ts : List Token} {ls : List Literal} {v : Value} :
      opening.kind = .openBracket → Separated DerivesLiteral ts ls → Literal.Gathers ls v →
      closing.kind = .closeBracket → DerivesValue (opening :: ts ++ [closing]) v
  | emptyMap {opening closing : Token} :
      opening.kind = .openCurly → closing.kind = .closeCurly →
      DerivesValue [opening, closing] (.map [])
  | map {opening closing : Token} {ts : List Token} {es : List Entry} :
      opening.kind = .openCurly → Separated DerivesEntry ts es → closing.kind = .closeCurly →
      DerivesValue (opening :: ts ++ [closing]) (.map es)

/-- Tokens that write a named value. -/
inductive DerivesEntry : List Token → Entry → Prop where
  | mk {name sign : Token} {ts : List Token} {v : Value} :
      name.kind = .identifier → sign.kind = .assignment → DerivesValue ts v →
      DerivesEntry (name :: sign :: ts) ⟨name.text, v⟩

end

/-- Tokens that write the entries of a tag: nothing at all, or one or more of them
    between parentheses. -/
inductive DerivesAttributes : List Token → List Entry → Prop where
  | none : DerivesAttributes [] []
  | some {opening closing : Token} {ts : List Token} {es : List Entry} :
      opening.kind = .openParen → Separated DerivesEntry ts es → closing.kind = .closeParen →
      DerivesAttributes (opening :: ts ++ [closing]) es

/-- Tokens that write a tag. The bracket starts where the hash sign ends, in the
    same input. -/
inductive DerivesTag : List Token → Tag → Prop where
  | mk {hash opening identity closing : Token} {ts : List Token} {es : List Entry} :
      hash.kind = .hash → opening.kind = .openBracket → opening.span.start = hash.span.stop →
      identity.kind = .identifier → DerivesAttributes ts es → closing.kind = .closeBracket →
      DerivesTag (hash :: opening :: identity :: ts ++ [closing]) ⟨identity.text, es⟩

/-- An entry starts with its name. -/
theorem DerivesEntry.head {ts : List Token} {e : Entry} (h : DerivesEntry ts e) :
    ∃ t rest, ts = t :: rest ∧ t.kind = .identifier := by
  cases h with
  | mk hname _ _ => exact ⟨_, _, rfl, hname⟩

/-- A map is written as its entries between braces, or as two braces. -/
theorem derivesValue_map_iff {ts : List Token} {es : List Entry} :
    DerivesValue ts (.map es) ↔
      ∃ opening us closing, ts = opening :: us ++ [closing] ∧ opening.kind = .openCurly ∧
        (us = [] ∧ es = [] ∨ Separated DerivesEntry us es) ∧ closing.kind = .closeCurly := by
  constructor
  · intro h
    generalize hv : Value.map es = v at h
    cases h with
    | literal _ hstands => cases hstands <;> cases hv
    | list _ _ hgathers _ => cases hgathers <;> cases hv
    | emptyMap hopening hclosing =>
        cases hv
        exact ⟨_, [], _, rfl, hopening, Or.inl ⟨rfl, rfl⟩, hclosing⟩
    | map hopening hsep hclosing =>
        cases hv
        exact ⟨_, _, _, rfl, hopening, Or.inr hsep, hclosing⟩
  · rintro ⟨opening, us, closing, rfl, hopening, ⟨rfl, rfl⟩ | hsep, hclosing⟩
    · exact .emptyMap hopening hclosing
    · exact .map hopening hsep hclosing

end Grammar

end Annotations
