import Annotations.Tag.Basic
import Mathlib.Data.Nat.Init
import Mathlib.Tactic.Common

/-!
# Nesting of Maps

How many maps lie inside one another in a tree. Maps side by side do not add up,
so the nesting of a list of entries is the greatest among their values, and each
map adds one to the nesting of its entries.

Maps are the only values that contain values, and what a map contains nests less
deeply than the map does. `Value.induction` turns this into an induction over
trees with two cases, a value without maps and a map whose values are known to
have the property, so that no proof has to recurse through values, lists of
entries and entries side by side.

## Main definitions

* `Value.nesting`, `Tag.nesting`: How many maps lie inside one another.

## Theorems

* `nestingOf_le_iff`: A bound on entries is a bound on each of their values.
* `Value.induction`: Induction over trees.
-/

namespace Annotations

mutual

/-- How many maps lie inside one another, the value itself included. -/
def Value.nesting : Value → Nat
  | .map entries => nestingOf entries + 1
  | _ => 0
termination_by structural v => v

/-- The greatest nesting among the values of entries. -/
def nestingOf : List Entry → Nat
  | [] => 0
  | e :: es => max e.nesting (nestingOf es)
termination_by structural es => es

/-- The nesting of an entry's value. -/
def Entry.nesting : Entry → Nat
  | ⟨_, value⟩ => value.nesting
termination_by structural e => e

end

/-- How many maps lie inside one another in a tag. -/
def Tag.nesting (t : Tag) : Nat :=
  nestingOf t.attrs

theorem Entry.nesting_eq (e : Entry) : e.nesting = e.value.nesting := by
  rcases e with ⟨name, value⟩
  rw [Entry.nesting]

/-- A bound on the nesting of entries is a bound on that of each of their values. -/
theorem nestingOf_le_iff {es : List Entry} {n : Nat} :
    nestingOf es ≤ n ↔ ∀ e ∈ es, e.value.nesting ≤ n := by
  induction es with
  | nil => simp only [nestingOf, Nat.zero_le, List.not_mem_nil, false_imp_iff, implies_true]
  | cons e es ih =>
      rw [nestingOf, Nat.max_le, ih, Entry.nesting_eq, List.forall_mem_cons]

theorem Value.nesting_map (es : List Entry) : (Value.map es).nesting = nestingOf es + 1 := by
  rw [Value.nesting]

/-- Induction over trees: a property of all values without maps that passes from
    the values in a map to the map is a property of all values. -/
@[elab_as_elim]
theorem Value.induction {P : Value → Prop} (flat : ∀ v : Value, v.nesting = 0 → P v)
    (map : ∀ es : List Entry, (∀ e ∈ es, P e.value) → P (.map es)) (v : Value) : P v := by
  induction hn : v.nesting using Nat.strong_induction_on generalizing v with
  | _ n ih =>
    cases v with
    | map es =>
        -- Each value in the map nests less deeply than the map, by at least one.
        refine map es (fun e he => ih e.value.nesting ?_ e.value rfl)
        rw [← hn, Value.nesting_map, Nat.lt_succ_iff]
        exact nestingOf_le_iff.mp (Nat.le_refl _) e he
    | string | integer | float | bool | strings | integers | floats | bools =>
        exact flat _ rfl

end Annotations
