import Annotations.Token.Basic
import Mathlib.Data.List.Basic
import Mathlib.Tactic.Common

/-!
# Sentences of Token Kinds

The grammar of annotations once more, over the kinds of tokens alone. What a
token says plays no part here: numbers may be of any size, the scalars of a list
of any types, and maps may nest as deeply as they like. What is left is the order
in which tokens may follow one another, and the question of this module is what
the beginning of a sentence says about its continuation.

The grammar can be read from left to right without looking back: no value is the
beginning of a longer one, and neither is an entry or a sentence. Once such a
part has been read, it is known to be that part and nothing else, and what comes
next does not depend on it.

`Stuck` describes a place at which reading cannot go on. What was read so far is
the beginning of some word, but no word goes on with the token that is there.
Where it is known what a word of one language is made of, a place in one of its
parts is a place in the word, and the lemmas about `Stuck` say so.

## Main definitions

* `Sentences.Closed`: Items with commas between neighbours, up to a closing token.
* `Sentences.IsValue`, `Sentences.IsEntry`: Values and entries.
* `Sentences.IsSentence`: Whole annotations.
* `Sentences.PrefixFree`: No word is the beginning of another one.
* `Sentences.Stuck`: Reading cannot go on, though something else could have.

## Theorems

* `Sentences.prefixFree_closed`, `Sentences.prefixFree_value`,
  `Sentences.prefixFree_sentence`: The parts of the grammar are prefix-free.
* `Sentences.Stuck.append`: A place behind a part that has been read.
* `Sentences.Stuck.extend`: A place in the first part of a word.
-/

namespace Annotations

/-- The kinds of tokens that write a scalar. -/
def Token.Kind.isScalar : Token.Kind → Bool
  | .string | .integer | .float | .trueWord | .falseWord => true
  | _ => false

namespace Sentences

open Token

/-- One or more items with commas between neighbours, and a closing token. -/
inductive Closed (item : List Kind → Prop) (closing : Kind) : List Kind → Prop where
  | last {ks : List Kind} : item ks → Closed item closing (ks ++ [closing])
  | more {ks rest : List Kind} : item ks → Closed item closing rest →
      Closed item closing (ks ++ .comma :: rest)

/-- One scalar. -/
def IsScalar (ks : List Kind) : Prop :=
  ∃ k, ks = [k] ∧ k.isScalar = true

mutual

/-- A scalar, one or more scalars between brackets, or entries between braces, of
    which there may be none. -/
inductive IsValue : List Kind → Prop where
  | scalar {ks : List Kind} : IsScalar ks → IsValue ks
  | list {ks : List Kind} : Closed IsScalar .closeBracket ks → IsValue (.openBracket :: ks)
  | emptyMap : IsValue [.openCurly, .closeCurly]
  | map {ks : List Kind} : Closed IsEntry .closeCurly ks → IsValue (.openCurly :: ks)

/-- A name, an equals sign and a value. -/
inductive IsEntry : List Kind → Prop where
  | mk {ks : List Kind} : IsValue ks → IsEntry (.identifier :: .assignment :: ks)

end

/-- An annotation, with or without entries between parentheses. -/
inductive IsSentence : List Kind → Prop where
  | bare : IsSentence [.hash, .openBracket, .identifier, .closeBracket]
  | attributes {ks : List Kind} : Closed IsEntry .closeParen ks →
      IsSentence (.hash :: .openBracket :: .identifier :: .openParen :: ks ++ [.closeBracket])

/-- Of two words that begin the same list neither is longer. -/
def PrefixFree (L : List Kind → Prop) : Prop :=
  ∀ ⦃u v x y : List Kind⦄, L u → L v → u ++ x = v ++ y → u = v

variable {L M : List Kind → Prop} {item : List Kind → Prop} {closing : Kind}

/-- A word that another one begins with is that word. -/
theorem PrefixFree.eq_nil (hL : PrefixFree L) {u x : List Kind} (hu : L u) (hux : L (u ++ x)) :
    x = [] := by
  have hsame : u ++ x = u ++ x ++ [] := (List.append_nil _).symm
  have h : u ++ [] = u ++ x := by
    rw [List.append_nil]
    exact hL hu hux hsame
  exact (List.append_cancel_left h).symm

theorem prefixFree_scalar : PrefixFree IsScalar := by
  rintro u v x y ⟨k, rfl, -⟩ ⟨j, rfl, -⟩ h
  injection h with hk _
  rw [hk]

/-- After an item comes the closing token, or a comma and further items. -/
theorem closed_append_iff (hitem : PrefixFree item) {u ks : List Kind} (hu : item u) :
    Closed item closing (u ++ ks) ↔
      ks = [closing] ∨ ∃ rest, ks = .comma :: rest ∧ Closed item closing rest := by
  constructor
  · intro h
    generalize hw : u ++ ks = w at h
    cases h with
    | last hv =>
        have huv := hitem hu hv hw
        subst huv
        exact Or.inl (List.append_cancel_left hw)
    | more hv hrest =>
        have huv := hitem hu hv hw
        subst huv
        exact Or.inr ⟨_, List.append_cancel_left hw, hrest⟩
  · rintro (rfl | ⟨rest, rfl, hrest⟩)
    · exact .last hu
    · exact .more hu hrest

/-- Closed lists of items are prefix-free if the items are: the token behind an item
    tells whether the list ends. -/
theorem prefixFree_closed (hitem : PrefixFree item) (hclosing : closing ≠ .comma) :
    PrefixFree (Closed item closing) := by
  intro u v x y hu hv h
  induction hu generalizing v with
  | last hks =>
      cases hv with
      | last hjs =>
          rw [List.append_assoc, List.append_assoc] at h
          rw [hitem hks hjs h]
      | more hjs _ =>
          -- One list would end where the other one goes on.
          rw [List.append_assoc, List.append_assoc] at h
          have heq := hitem hks hjs h
          subst heq
          injection List.append_cancel_left h with hcomma _
          exact absurd hcomma hclosing
  | more hks _ ih =>
      cases hv with
      | last hjs =>
          rw [List.append_assoc, List.append_assoc] at h
          have heq := hitem hks hjs h
          subst heq
          injection List.append_cancel_left h with hcomma _
          exact absurd hcomma.symm hclosing
      | more hjs hrest =>
          rw [List.append_assoc, List.append_assoc] at h
          have heq := hitem hks hjs h
          subst heq
          injection List.append_cancel_left h with _ htail
          rw [ih hrest htail]

/-- The items of a list are shorter than any bound on the list. -/
theorem Closed.shorter {ks : List Kind} (h : Closed item closing ks) {n : Nat}
    (hn : ks.length ≤ n) : Closed (fun us => item us ∧ us.length < n) closing ks := by
  induction h with
  | last hks =>
      rw [List.length_append, List.length_singleton] at hn
      exact .last ⟨hks, by omega⟩
  | more hks _ ih =>
      rw [List.length_append, List.length_cons] at hn
      exact .more ⟨hks, by omega⟩ (ih (by omega))

/-- A value that starts with a scalar is that scalar. -/
theorem IsValue.eq_singleton {k : Kind} {v x y : List Kind} (hv : IsValue v)
    (hk : k.isScalar = true) (h : v ++ y = [k] ++ x) : v = [k] := by
  cases hv with
  | scalar hscalar =>
      rcases hscalar with ⟨j, rfl, -⟩
      injection h with hj _
      rw [hj]
  | list _ | emptyMap | map _ =>
      injection h with hhead _
      rw [← hhead] at hk
      cases hk

/-- Values that are not too long are prefix-free. The first token tells them apart,
    and the values in a map are shorter than the map. -/
theorem prefixFree_value_of_length_le (n : Nat) :
    PrefixFree fun ks => IsValue ks ∧ ks.length ≤ n := by
  induction n with
  | zero =>
      rintro u v x y ⟨-, hu⟩ ⟨-, hv⟩ -
      rw [List.length_eq_zero_iff.mp (Nat.le_zero.mp hu),
        List.length_eq_zero_iff.mp (Nat.le_zero.mp hv)]
  | succ n ih =>
      have hentry : PrefixFree fun ks => IsEntry ks ∧ ks.length < n + 1 := by
        rintro u v x y ⟨⟨hu⟩, hun⟩ ⟨⟨hv⟩, hvn⟩ h
        simp only [List.length_cons] at hun hvn
        injection h with _ h
        injection h with _ h
        rw [ih ⟨hu, by omega⟩ ⟨hv, by omega⟩ h]
      have hlist : PrefixFree (Closed IsScalar .closeBracket) :=
        prefixFree_closed prefixFree_scalar (by decide)
      have hmap : PrefixFree (Closed (fun ks => IsEntry ks ∧ ks.length < n + 1) .closeCurly) :=
        prefixFree_closed hentry (by decide)
      -- An entry starts with its name, so entries do not start like an empty map.
      have hempty : ∀ {us x y : List Kind}, Closed IsEntry .closeCurly us →
          .closeCurly :: x ≠ us ++ y := by
        rintro us x y (⟨⟨-⟩⟩ | ⟨⟨-⟩, -⟩) h <;> cases h
      -- Two values of different forms cannot begin alike, since their first tokens differ.
      -- Of one form, they are alike as far as their items are.
      rintro u v x y ⟨hu, hun⟩ ⟨hv, hvn⟩ h
      cases hu with
      | scalar hscalar =>
          rcases hscalar with ⟨k, rfl, hk⟩
          exact (hv.eq_singleton hk h.symm).symm
      | list hus =>
          cases hv with
          | scalar hscalar =>
              rcases hscalar with ⟨k, rfl, hk⟩
              exact IsValue.eq_singleton (.list hus) hk h
          | list hvs =>
              injection h with _ htail
              rw [hlist hus hvs htail]
          | emptyMap | map _ => cases h
      | emptyMap =>
          cases hv with
          | scalar hscalar =>
              rcases hscalar with ⟨k, rfl, hk⟩
              exact IsValue.eq_singleton .emptyMap hk h
          | list _ => cases h
          | emptyMap => rfl
          | map hvs =>
              injection h with _ htail
              exact absurd htail (hempty hvs)
      | map hus =>
          cases hv with
          | scalar hscalar =>
              rcases hscalar with ⟨k, rfl, hk⟩
              exact IsValue.eq_singleton (.map hus) hk h
          | list _ => cases h
          | emptyMap =>
              injection h with _ htail
              exact absurd htail.symm (hempty hus)
          | map hvs =>
              injection h with _ htail
              rw [List.length_cons] at hun hvn
              rw [hmap (hus.shorter (by omega)) (hvs.shorter (by omega)) htail]

theorem prefixFree_value : PrefixFree IsValue := by
  intro u v x y hu hv h
  exact prefixFree_value_of_length_le (u.length + v.length) ⟨hu, Nat.le_add_right _ _⟩
    ⟨hv, Nat.le_add_left _ _⟩ h

theorem prefixFree_entry : PrefixFree IsEntry := by
  rintro u v x y ⟨hu⟩ ⟨hv⟩ h
  injection h with _ h
  injection h with _ h
  rw [prefixFree_value hu hv h]

/-- No annotation is the beginning of a longer one. -/
theorem prefixFree_sentence : PrefixFree IsSentence := by
  have hclosed : PrefixFree (Closed IsEntry .closeParen) :=
    prefixFree_closed prefixFree_entry (by decide)
  rintro u v x y (_ | hus) (_ | hvs) h
  · rfl
  · cases h
  · cases h
  · simp only [List.cons_append, List.append_assoc, List.cons.injEq, true_and] at h
    rw [hclosed hus hvs h]

/-- Reading words of a language cannot go on: what was read begins a word, but no
    word goes on with a token of the kind that is there. A word could have gone on
    with any of the kinds that were expected. -/
structure Stuck (L : List Kind → Prop) (read : List Kind) (k : Kind) (expected : Kind → Prop) :
    Prop where
  continues : ∃ next rest, L (read ++ next :: rest)
  hopeless : ∀ rest, ¬ L (read ++ k :: rest)
  possible : ∀ next, expected next → ∃ rest, L (read ++ next :: rest)

namespace Stuck

variable {u v : List Kind} {k : Kind} {expected : Kind → Prop}

/-- A place behind a part that has been read, if that part leaves no choice of how
    the word goes on. -/
theorem append (h : Stuck M v k expected) (hu : ∀ ks, L (u ++ ks) ↔ M ks) :
    Stuck L (u ++ v) k expected where
  continues := by
    rcases h.continues with ⟨next, rest, hnext⟩
    exact ⟨next, rest, by rw [List.append_assoc, hu]; exact hnext⟩
  hopeless := by
    intro rest
    rw [List.append_assoc, hu]
    exact h.hopeless rest
  possible := by
    intro next hnext
    rcases h.possible next hnext with ⟨rest, hrest⟩
    exact ⟨rest, by rw [List.append_assoc, hu]; exact hrest⟩

/-- A place in the first part of a word, if that part is in a language without
    prefixes and any word of that language is such a part. -/
theorem extend (h : Stuck L u k expected) (hL : PrefixFree L)
    (hpart : ∀ ks, M ks → ∃ a b, ks = a ++ b ∧ L a) (hword : ∀ a, L a → ∃ b, M (a ++ b)) :
    Stuck M u k expected where
  continues := by
    rcases h.continues with ⟨next, rest, hnext⟩
    rcases hword _ hnext with ⟨b, hb⟩
    exact ⟨next, rest ++ b, by rw [List.append_assoc] at hb; exact hb⟩
  hopeless := by
    intro rest hrest
    rcases hpart _ hrest with ⟨a, b, hab, ha⟩
    rcases h.continues with ⟨next, more, hmore⟩
    rcases List.append_eq_append_iff.mp hab with ⟨m, rfl, hm⟩ | ⟨m, rfl, hm⟩
    · -- The part reaches beyond what was read, or ends exactly there.
      rcases m with _ | ⟨j, m⟩
      · rw [List.append_nil] at ha
        exact List.cons_ne_nil _ _ (hL.eq_nil ha hmore)
      · injection hm with hj _
        rw [← hj] at ha
        exact h.hopeless m ha
    · -- The part has been read in full, but what was read is not a full word.
      rw [List.append_assoc] at hmore
      have hnil := hL.eq_nil ha hmore
      exact absurd (List.append_eq_nil_iff.mp hnil).2 (List.cons_ne_nil _ _)
  possible := by
    intro next hnext
    rcases h.possible next hnext with ⟨rest, hrest⟩
    rcases hword _ hrest with ⟨b, hb⟩
    exact ⟨rest ++ b, by rw [List.append_assoc] at hb; exact hb⟩

/-- A place at which fewer kinds are said to be expected. -/
theorem weaken {other : Kind → Prop} (h : Stuck L u k expected)
    (hother : ∀ next, other next → expected next) : Stuck L u k other where
  continues := h.continues
  hopeless := h.hopeless
  possible next hnext := h.possible next (hother next hnext)

/-- A place in front of the first token, which can only be of one kind. -/
theorem first {j : Kind} (hL : ∀ i ks, L (i :: ks) ↔ i = j ∧ M ks) (hM : ∃ ks, M ks)
    (hk : k ≠ j) : Stuck L [] k (· = j) := by
  rcases hM with ⟨rest, hrest⟩
  have hword : L (j :: rest) := (hL j rest).mpr ⟨rfl, hrest⟩
  refine ⟨⟨j, rest, hword⟩, ?_, ?_⟩
  · intro more h
    exact hk ((hL k more).mp h).1
  · intro next hnext
    rw [hnext]
    exact ⟨rest, hword⟩

/-- A place where more words are allowed, none of which goes on as it does there. -/
theorem mono (h : Stuck L u k expected) (hLM : ∀ ks, L ks → M ks)
    (hopeless : ∀ rest, ¬ M (u ++ k :: rest)) : Stuck M u k expected where
  continues := by
    rcases h.continues with ⟨next, rest, hnext⟩
    exact ⟨next, rest, hLM _ hnext⟩
  hopeless := hopeless
  possible := by
    intro next hnext
    rcases h.possible next hnext with ⟨rest, hrest⟩
    exact ⟨rest, hLM _ hrest⟩

/-- A place in the first item of a list. -/
theorem closed (h : Stuck item u k expected) (hitem : PrefixFree item) (closing : Kind) :
    Stuck (Closed item closing) u k expected := by
  refine h.extend hitem ?_ (fun a ha => ⟨[closing], .last ha⟩)
  rintro ks (ha | ⟨ha, -⟩)
  · exact ⟨_, _, rfl, ha⟩
  · exact ⟨_, _, rfl, ha⟩

/-- A place in a list behind an item and a comma. -/
theorem closed_more (h : Stuck (Closed item closing) v k expected) (hitem : PrefixFree item)
    (hclosing : closing ≠ .comma) (hu : item u) :
    Stuck (Closed item closing) (u ++ .comma :: v) k expected := by
  -- The comma leaves no choice: the list is not closed behind the item.
  have hcomma : ∀ ks, Closed item closing (u ++ [.comma] ++ ks) ↔ Closed item closing ks := by
    intro ks
    rw [List.append_assoc, closed_append_iff hitem hu]
    constructor
    · rintro (h | ⟨rest, hrest, hks⟩)
      · injection h with h _
        exact absurd h.symm hclosing
      · injection hrest with _ hrest
        rw [← hrest] at hks
        exact hks
    · intro hks
      exact Or.inr ⟨ks, rfl, hks⟩
  have happend := h.append hcomma
  rw [List.append_assoc] at happend
  exact happend

/-- A place behind an item, where neither a comma nor the closing token is. -/
theorem closed_end (hitem : PrefixFree item) (hu : item u) (hcomma : k ≠ .comma)
    (hk : k ≠ closing) : Stuck (Closed item closing) u k (· = closing) where
  continues := ⟨closing, [], .last hu⟩
  hopeless := by
    intro rest h
    rcases (closed_append_iff hitem hu).mp h with h | ⟨more, h, -⟩
    · injection h with h _
      exact hk h
    · injection h with h _
      exact hcomma h
  possible := by
    rintro next rfl
    exact ⟨[], .last hu⟩

end Stuck

end Sentences

end Annotations
