import Annotations.Parser.Rules
import Mathlib.Tactic.Common

/-!
# What Every Run Obeys

Statements on what a run of the parser can do to its state are proved rule by rule, and
most rules do nothing that is of interest for them: they look at the current token,
move past one that is no brace, and go on with another rule. A `Law` is such a
statement, with what it takes to carry it through sequences of parsers. It says what
may come of a success and what of a failure, which need not be the same, since a rule
that fails stops anywhere.

Only maps change the count of open maps. So a law that holds of maps, where they start
at a brace, holds of all other rules, and this is proved here once for all laws.

## Main definitions

* `Parser.Law`: What may come of a run.
* `Parser.Law.Admits`: A result is one that the law allows.
* `Parser.Law.Governs`: A parser obeys the law.

## Theorems

* `Parser.Law.Governs.bind`, `Parser.Law.governs_separated`: Combinations of parsers.
* `Parser.Law.governs_literal`, `Parser.Law.governs_list`: Rules without maps.
* `Parser.Law.governs_value`, `Parser.Law.governs_tag`: Rules with maps.
-/

namespace Annotations

namespace Parser

variable {α β : Type}

theorem expect_of_kind {kind : Token.Kind} {s : State} (h : s.kind = kind) :
    expect kind s = .ok s.current s.next := by
  rw [expect, expectOr, if_pos h, advance]

theorem expect_of_ne {kind : Token.Kind} {s : State} (h : s.kind ≠ kind) :
    expect kind s = .error (s.unexpected kind.describe) s := by
  rw [expect, expectOr, if_neg h]

theorem expect_eq_ok {kind : Token.Kind} {t : Token} {s s' : State}
    (h : expect kind s = .ok t s') : s' = s.next := by
  by_cases hkind : s.kind = kind
  · rw [expect_of_kind hkind] at h
    cases h
    rfl
  · rw [expect_of_ne hkind] at h
    cases h

/-- What may come of a run from the states that are covered, if it succeeds and if it
    fails. Nothing may come of it, a token that is no brace may be passed, and one run may
    follow another. -/
structure Law where
  /-- The states about which something is said. -/
  covers : State → Prop
  /-- The state before a run that succeeds, and the one after it. -/
  success : State → State → Prop
  /-- The state before a run that fails, and the one that it stops in. -/
  failure : State → State → Prop
  success_refl : ∀ s, success s s
  failure_refl : ∀ s, failure s s
  success_trans : ∀ {s t s'}, success s t → success t s' → success s s'
  failure_trans : ∀ {s t s'}, success s t → failure t s' → failure s s'
  covers_success : ∀ {s s'}, covers s → success s s' → covers s'
  success_next : ∀ {s : State}, s.kind ≠ .endOfInput → s.kind ≠ .openCurly →
    s.kind ≠ .closeCurly → success s s.next

namespace Law

/-- The law allows the result of a run from the state. -/
def Admits (law : Law) (s : State) : EStateM.Result Fault State α → Prop
  | .ok _ s' => law.success s s'
  | .error _ s' => law.failure s s'

/-- From every state that the law covers, the parser obeys it. -/
def Governs (law : Law) (p : Parser α) : Prop :=
  ∀ s, law.covers s → law.Admits s (p s)

/-- The law allows what comes of maps that start at a brace. -/
def GovernsMap (law : Law) (map : Parser Value) : Prop :=
  ∀ s, law.covers s → s.kind = .openCurly → law.Admits s (map s)

variable {law : Law}

theorem admits_stay_ok (s : State) (a : α) : law.Admits s (.ok a s) :=
  law.success_refl s

theorem admits_stay_error (s : State) (fault : Fault) : law.Admits (α := α) s (.error fault s) :=
  law.failure_refl s

/-- A run that follows a success. -/
theorem Admits.after {s t : State} {r : EStateM.Result Fault State α} (h : law.Admits t r)
    (hsuccess : law.success s t) : law.Admits s r := by
  cases r with
  | ok a s' => exact law.success_trans hsuccess h
  | error fault s' => exact law.failure_trans hsuccess h

theorem governs_pure (a : α) : law.Governs (pure a) :=
  fun s _ => admits_stay_ok s a

/-- A sequence, once its first parser is known to obey. -/
theorem Admits.bind {p : Parser α} {f : α → Parser β} {s : State} (hs : law.covers s)
    (hp : law.Admits s (p s)) (hf : ∀ a, law.Governs (f a)) : law.Admits s ((p >>= f) s) := by
  cases hresult : p s with
  | error fault t =>
      rw [hresult] at hp
      rw [bind_error hresult]
      exact hp
  | ok a t =>
      -- What follows starts from a state that is covered as well.
      rw [hresult] at hp
      rw [bind_ok hresult]
      exact (hf a t (law.covers_success hs hp)).after hp

theorem Governs.bind {p : Parser α} {f : α → Parser β} (hp : law.Governs p)
    (hf : ∀ a, law.Governs (f a)) : law.Governs (p >>= f) :=
  fun s hs => (hp s hs).bind hs hf

theorem governs_look (view : State → Except Fault α) : law.Governs (look view) := by
  intro s _
  rw [look]
  cases view s with
  | ok a => exact admits_stay_ok s a
  | error fault => exact admits_stay_error s fault

theorem governs_position : law.Governs position :=
  fun s _ => admits_stay_ok s s.position

theorem governs_refuseIf (condition : State → Bool) (cause : State → Fault.Cause) :
    law.Governs (refuseIf condition cause) := by
  intro s _
  rw [refuseIf]
  split
  · exact admits_stay_error s _
  · exact admits_stay_ok s ()

theorem governs_adjacent (hash opening : Token) : law.Governs (adjacent hash opening) := by
  intro s _
  rw [adjacent]
  split
  · exact admits_stay_ok s ()
  · exact admits_stay_error s _

theorem governs_expect {kind : Token.Kind} (hend : kind ≠ .endOfInput := by decide)
    (hopen : kind ≠ .openCurly := by decide) (hclose : kind ≠ .closeCurly := by decide) :
    law.Governs (expect kind) := by
  intro s _
  by_cases hs : s.kind = kind
  · rw [expect_of_kind hs]
    exact law.success_next (hs ▸ hend) (hs ▸ hopen) (hs ▸ hclose)
  · rw [expect_of_ne hs]
    exact admits_stay_error s _

theorem governs_unlessAt {closing : Token.Kind} {items : Parser (List α)}
    (hitems : law.Governs items) : law.Governs (unlessAt closing items) := by
  intro s hs
  rw [unlessAt]
  split
  · exact admits_stay_ok s []
  · exact hitems s hs

theorem governs_onlyAt {opening : Token.Kind} {items : Parser (List α)}
    (hitems : ∀ s, law.covers s → s.kind = opening → law.Admits s (items s)) :
    law.Governs (onlyAt opening items) := by
  intro s hs
  rw [onlyAt]
  by_cases hkind : s.kind = opening
  · rw [if_pos hkind]
    exact hitems s hs hkind
  · rw [if_neg hkind]
    exact admits_stay_ok s []

/-- A list of items goes from item to item over the commas. -/
theorem governs_separatedUpTo {item : Parser α} (hitem : law.Governs item) (n : Nat) :
    law.Governs (separatedUpTo item n) := by
  induction n with
  | zero => exact hitem.bind fun a => governs_pure [a]
  | succ n ih =>
      refine hitem.bind fun a => (governs_onlyAt ?_).bind fun rest => governs_pure (a :: rest)
      intro s hs hcomma
      -- The comma is passed first, and then what is left of the list is read.
      have hadvance : law.Admits s (advance s) := by
        refine law.success_next ?_ ?_ ?_ <;> rw [hcomma] <;> decide
      exact hadvance.bind hs fun _ => ih

theorem governs_separated {item : Parser α} (hitem : law.Governs item) :
    law.Governs (separated item) :=
  fun s hs => governs_separatedUpTo hitem s.rest.length s hs

/-- A token that reads as a scalar is no brace. -/
theorem governs_literal : law.Governs literal := by
  intro s hs
  cases hl : s.literal with
  | error fault =>
      rw [literal, bind_error (by rw [look, hl])]
      exact admits_stay_error s fault
  | ok l =>
      have hkind : s.kind ≠ .endOfInput ∧ s.kind ≠ .openCurly ∧ s.kind ≠ .closeCurly := by
        refine ⟨?_, ?_, ?_⟩ <;>
        · intro hs
          rw [State.kind] at hs
          simp only [State.literal, hs, reduceCtorEq] at hl
      rw [literal, bind_ok (by rw [look, hl])]
      have hadvance : law.Admits s (advance s) := law.success_next hkind.1 hkind.2.1 hkind.2.2
      exact hadvance.bind hs fun _ => governs_pure l

theorem governs_literalValue : law.Governs literalValue :=
  governs_literal.bind fun l => governs_pure l.toValue

theorem governs_element : law.Governs element :=
  governs_position.bind fun start => governs_literal.bind fun l => governs_pure (l, start)

theorem governs_list : law.Governs list :=
  (governs_expect).bind fun _ =>
    (governs_separated governs_element).bind fun _ =>
      (governs_expect).bind fun _ => governs_look _

theorem governs_valueWith {map : Parser Value} (hmap : law.GovernsMap map) :
    law.Governs (valueWith map) := by
  intro s hs
  rw [valueWith]
  split
  iterate 5 exact governs_literalValue s hs
  · exact governs_list s hs
  · next hkind => exact hmap s hs hkind
  · exact admits_stay_error s _

theorem governs_entryWith {value : Parser Value} (hvalue : law.Governs value) :
    law.Governs (entryWith value) :=
  (governs_expect).bind fun name =>
    (governs_expect).bind fun _ =>
      hvalue.bind fun v => governs_pure (⟨name.text, v⟩ : Entry)

/-- What stands between the braces of a map, where a rule for the maps in it is given. -/
theorem governs_items {map : Parser Value} (hmap : law.GovernsMap map) :
    law.Governs (unlessAt .closeCurly (separated (entryWith (valueWith map)))) :=
  governs_unlessAt (governs_separated (governs_entryWith (governs_valueWith hmap)))

section Maps

variable (hmap : law.GovernsMap map)
include hmap

theorem governs_value : law.Governs value :=
  governs_valueWith hmap

theorem governs_entry : law.Governs entry :=
  governs_entryWith (governs_value hmap)

theorem governs_entries : law.Governs entries :=
  governs_separated (governs_entry hmap)

theorem governs_attributes : law.Governs attributes :=
  (governs_expect).bind fun _ =>
    (governs_refuseIf _ _).bind fun _ =>
      (governs_entries hmap).bind fun es =>
        (governs_expect).bind fun _ => governs_pure es

theorem governs_tag : law.Governs tag :=
  (governs_expect).bind fun hash =>
    (governs_expect).bind fun opening =>
      (governs_adjacent hash opening).bind fun _ =>
        (governs_expect).bind fun identity =>
          (governs_onlyAt fun s hs _ => governs_attributes hmap s hs).bind fun es =>
            (governs_expect).bind fun _ =>
              governs_pure (⟨identity.text, es⟩ : Tag)

theorem governs_wholeTag : law.Governs wholeTag :=
  (governs_tag hmap).bind fun t => (governs_refuseIf _ _).bind fun _ => governs_pure t

end Maps

end Law

end Parser

end Annotations
