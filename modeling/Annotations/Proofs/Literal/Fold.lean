import Annotations.Literal
import Annotations.Proofs.Number.Nearest
import Mathlib.Data.List.Forall2
import Mathlib.Tactic.Common

/-!
# Values of Literals

What value a literal is by itself, and which list values literals make up.
`Gathers` says the latter without a scan: literals are the elements of a list of
strings, of truth values or of integers, or they are numbers with a float among
them, and then the list holds all of them as floats. An integer is there as the
float nearest to it. The scan for the first element that does not fit in, and
the selection of elements that comes after it, agree with this:
`fold_eq_ok_iff`. In particular the selection drops nothing.

## Main definitions

* `Literal.Stands`: The value that a literal stands for.
* `Literal.Widens`: The float that stands for a number in a list of floats.
* `Literal.Gathers`: Literals that make up a list value.

## Theorems

* `map_filterMap_eq`: A selection that keeps every element drops nothing.
* `Literal.stands_iff`, `Literal.forall₂_widens_iff`: Both are what is computed.
* `Literal.fold_eq_ok_iff`: Folding gives the list that literals make up.
* `Literal.lt_length_of_fold_eq_mixed`: What does not fit in is one of the literals.
-/

namespace Annotations

open Number

/-- A selection that keeps every element, and can be undone on each of them,
    drops nothing. -/
theorem map_filterMap_eq {α β : Type} {f : α → Option β} {g : β → α} {as : List α}
    (h : ∀ a ∈ as, ∃ b, f a = some b ∧ g b = a) : (as.filterMap f).map g = as := by
  induction as with
  | nil => rfl
  | cons a as ih =>
      rw [List.forall_mem_cons] at h
      rcases h with ⟨⟨b, hf, hg⟩, has⟩
      rw [List.filterMap_cons_some hf, List.map_cons, hg, ih has]

namespace Literal

/-- The literal stands for the value. -/
inductive Stands : Literal → Value → Prop where
  | string (s : String) : Stands (.string s) (.string s)
  | integer (n : Int64) : Stands (.integer n) (.integer n)
  | float (x : Binary64) : Stands (.float x) (.float x)
  | bool (b : Bool) : Stands (.bool b) (.bool b)

/-- The number stands for the float in a list of floats. -/
inductive Widens : Literal → Binary64 → Prop where
  | integer {n : Int64} {x : Binary64} : Binary64.IsNearest n.toInt x → Widens (.integer n) x
  | float (x : Binary64) : Widens (.float x) x

/-- The literals make up the list value. -/
inductive Gathers : List Literal → Value → Prop where
  | strings (ss : List String) : Gathers (ss.map .string) (.strings ss)
  | bools (bs : List Bool) : Gathers (bs.map .bool) (.bools bs)
  | integers (ns : List Int64) : Gathers (ns.map .integer) (.integers ns)
  | floats {ls : List Literal} {xs : List Binary64} (x : Binary64) :
      .float x ∈ ls → List.Forall₂ Widens ls xs → Gathers ls (.floats xs)

theorem stands_iff {l : Literal} {v : Value} : Stands l v ↔ v = l.toValue := by
  constructor
  · intro h
    cases h <;> rfl
  · rintro rfl
    cases l with
    | string s => exact .string s
    | integer n => exact .integer n
    | float x => exact .float x
    | bool b => exact .bool b

/-- Every integer of 64 bits has a nearest float, and it is the one computed. -/
theorem widens_iff {l : Literal} {x : Binary64} : Widens l x ↔ l.widened? = some x := by
  cases l with
  | integer n =>
      have hlow := n.le_toInt
      have hhigh := n.toInt_lt
      have hnearest : Binary64.IsNearest n.toInt x ↔ x = .ofInt n.toInt :=
        Binary64.isNearest_iff (by omega)
      rw [widened?, Option.some.injEq, eq_comm, ← hnearest]
      constructor
      · rintro ⟨h⟩
        exact h
      · exact .integer
  | float y =>
      rw [widened?, Option.some.injEq]
      constructor
      · rintro ⟨⟩
        rfl
      · rintro rfl
        exact .float y
  | string | bool => exact iff_of_false (fun h => nomatch h) (fun h => nomatch h)

theorem forall₂_widens_iff {ls : List Literal} {xs : List Binary64} :
    List.Forall₂ Widens ls xs ↔ ls.map widened? = xs.map some := by
  rw [← List.forall₂_eq_eq_eq, List.forall₂_map_left_iff, List.forall₂_map_right_iff]
  constructor
  · exact List.Forall₂.imp fun _ _ => widens_iff.mp
  · exact List.Forall₂.imp fun _ _ => widens_iff.mpr

theorem family_eq_string_iff {l : Literal} : l.family = .string ↔ ∃ s, l = .string s := by
  cases l <;> simp [family, kind, Kind.family]

theorem family_eq_bool_iff {l : Literal} : l.family = .bool ↔ ∃ b, l = .bool b := by
  cases l <;> simp [family, kind, Kind.family]

theorem family_eq_numeric_iff {l : Literal} :
    l.family = .numeric ↔ (∃ n, l = .integer n) ∨ ∃ x, l = .float x := by
  cases l <;> simp [family, kind, Kind.family]

theorem kind_eq_float_iff {l : Literal} : l.kind = .float ↔ ∃ x, l = .float x := by
  cases l <;> simp [kind]

/-- Literals of one family are gathered without loss. -/
theorem gathers_gather {family : Family} {ls : List Literal} (h : ∀ l ∈ ls, l.family = family) :
    Gathers ls (gather family ls) := by
  cases family with
  | string =>
      have hall : (ls.filterMap string?).map .string = ls := by
        refine map_filterMap_eq (fun l hl => ?_)
        rcases family_eq_string_iff.mp (h l hl) with ⟨s, rfl⟩
        exact ⟨s, rfl, rfl⟩
      have := Gathers.strings (ls.filterMap string?)
      rw [hall] at this
      exact this
  | bool =>
      have hall : (ls.filterMap bool?).map .bool = ls := by
        refine map_filterMap_eq (fun l hl => ?_)
        rcases family_eq_bool_iff.mp (h l hl) with ⟨b, rfl⟩
        exact ⟨b, rfl, rfl⟩
      have := Gathers.bools (ls.filterMap bool?)
      rw [hall] at this
      exact this
  | numeric =>
      rw [gather]
      by_cases hfloat : ls.any (·.kind = .float) = true
      · rw [if_pos hfloat]
        rcases List.any_eq_true.mp hfloat with ⟨l, hl, hkind⟩
        rcases kind_eq_float_iff.mp (of_decide_eq_true hkind) with ⟨x, rfl⟩
        refine .floats x hl (forall₂_widens_iff.mpr ?_)
        -- Every number can be widened, so the selection keeps all of them.
        clear hl hfloat
        induction ls with
        | nil => rfl
        | cons l ls ih =>
            rw [List.forall_mem_cons] at h
            have hl : ∃ y, l.widened? = some y := by
              rcases family_eq_numeric_iff.mp h.1 with ⟨n, rfl⟩ | ⟨y, rfl⟩
              · exact ⟨_, rfl⟩
              · exact ⟨y, rfl⟩
            rcases hl with ⟨y, hy⟩
            rw [List.map_cons, List.filterMap_cons_some hy, List.map_cons, hy, ih h.2]
      · rw [if_neg hfloat]
        have hall : (ls.filterMap integer?).map .integer = ls := by
          refine map_filterMap_eq (fun l hl => ?_)
          rcases family_eq_numeric_iff.mp (h l hl) with ⟨n, rfl⟩ | ⟨x, rfl⟩
          · exact ⟨n, rfl, rfl⟩
          · exact absurd (List.any_eq_true.mpr ⟨_, hl, decide_eq_true rfl⟩) hfloat
        have := Gathers.integers (ls.filterMap integer?)
        rw [hall] at this
        exact this

/-- Literals that make up a list are of one family, and gathering them gives the
    list. -/
theorem Gathers.gather_eq {ls : List Literal} {v : Value} (h : Gathers ls v) :
    ∃ family, (∀ l ∈ ls, l.family = family) ∧ gather family ls = v := by
  cases h with
  | strings ss =>
      refine ⟨.string, ?_, ?_⟩
      · intro l hl
        rcases List.mem_map.mp hl with ⟨s, -, rfl⟩
        rfl
      · simp [gather, List.filterMap_map, Function.comp_def, string?]
  | bools bs =>
      refine ⟨.bool, ?_, ?_⟩
      · intro l hl
        rcases List.mem_map.mp hl with ⟨b, -, rfl⟩
        rfl
      · simp [gather, List.filterMap_map, Function.comp_def, bool?]
  | integers ns =>
      refine ⟨.numeric, ?_, ?_⟩
      · intro l hl
        rcases List.mem_map.mp hl with ⟨n, -, rfl⟩
        rfl
      · simp [gather, List.filterMap_map, Function.comp_def, integer?, kind]
  | @floats ls xs x hx hwidens =>
      have hwide := forall₂_widens_iff.mp hwidens
      refine ⟨.numeric, ?_, ?_⟩
      · -- Only numbers can be widened.
        intro l hl
        have hmem : l.widened? ∈ xs.map some := by
          rw [← hwide]
          exact List.mem_map_of_mem hl
        rcases List.mem_map.mp hmem with ⟨y, -, hy⟩
        cases l with
        | integer | float => rfl
        | string | bool => cases hy
      · have hfloat : ls.any (·.kind = .float) = true :=
          List.any_eq_true.mpr ⟨_, hx, decide_eq_true rfl⟩
        -- Selecting is widening and then dropping what could not be widened.
        have hsel : ls.filterMap widened? = xs := by
          have hid := congrArg (List.filterMap id) hwide
          simpa only [List.filterMap_map, Function.id_comp, Function.comp_def, id,
            List.filterMap_some] using hid
        rw [gather, if_pos hfloat, hsel]

/-- Folding gives exactly the list that the literals, at least one of them, make
    up. -/
theorem fold_eq_ok_iff {ls : List Literal} {v : Value} :
    fold ls = .ok v ↔ ls ≠ [] ∧ Gathers ls v := by
  rcases ls with _ | ⟨first, rest⟩
  · constructor
    · intro h
      cases h
    · intro h
      exact absurd rfl h.1
  constructor
  · intro h
    simp only [fold] at h
    split at h
    · cases h
    · next hnone =>
        cases h
        refine ⟨List.cons_ne_nil _ _, gathers_gather (fun l hl => ?_)⟩
        -- The scan went through, so no element is of another family.
        rcases List.getElem_of_mem hl with ⟨i, hi, rfl⟩
        have hmem : ((first :: rest)[i], i) ∈ (first :: rest).zipIdx := by
          simp only [List.mk_mem_zipIdx_iff_getElem?, List.getElem?_eq_getElem hi]
        have := List.find?_eq_none.mp hnone _ hmem
        simpa only [ne_eq, decide_not, Bool.not_eq_true', decide_eq_false_iff_not,
          not_not] using this
  · rintro ⟨-, hgathers⟩
    rcases hgathers.gather_eq with ⟨family, hfamily, hgather⟩
    have hfirst : first.family = family := hfamily first List.mem_cons_self
    -- All elements are of the family of the first one, so the scan finds nothing.
    have hnone : (first :: rest).zipIdx.find? (fun entry => decide (entry.1.family ≠ family)) =
        none := by
      refine List.find?_eq_none.mpr (fun entry hentry => ?_)
      have hmem : entry.1 ∈ first :: rest := (List.mem_zipIdx' hentry).2 ▸ List.getElem_mem _
      simp only [hfamily entry.1 hmem, ne_eq, not_true_eq_false, decide_false,
        Bool.false_eq_true, not_false_eq_true]
    simp only [fold, hfirst, hnone, hgather]

/-- The element that does not fit in is one of the literals. -/
theorem lt_length_of_fold_eq_mixed {ls : List Literal} {index : Nat} {expected received : Kind}
    (h : fold ls = .error (.mixed index expected received)) : index < ls.length := by
  rcases ls with _ | ⟨first, rest⟩
  · cases h
  · simp only [fold] at h
    split at h
    · next l found hfind =>
        cases h
        have hmem := List.mem_of_find?_eq_some hfind
        exact (List.mem_zipIdx' hmem).1
    · cases h

theorem fold_ne_empty {ls : List Literal} (h : ls ≠ []) : fold ls ≠ .error .empty := by
  rcases ls with _ | ⟨first, rest⟩
  · exact absurd rfl h
  · simp only [fold]
    split <;> simp

end Literal

end Annotations
