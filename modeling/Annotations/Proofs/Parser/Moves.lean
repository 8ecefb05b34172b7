import Annotations.Proofs.Parser.Laws
import Mathlib.Data.Int.Init

/-!
# How the Parser Moves

What a run of the parser can do to its state, whether it succeeds or fails. A
run is a path of steps, and a step passes one token. Most tokens leave the rest
of the state as it is. A brace that opens a map raises the count of open maps,
which is possible only if there is room for one more, and a brace that closes a
map lowers it again, which happens only while a map is open.

The rules do not do this in one go: a map is counted before its brace is read,
and its end after the closing brace. But nothing can fail in between, so a run
never stops there, and `Travels` holds of every rule. It is a law on runs, so all
that is left to see is that maps obey it. What a run preserves is then proved of
single steps and carried along the path, without another look at the rules.

## Main definitions

* `Token.openMaps`: How many maps tokens leave open.
* `Parser.State.Step`, `Parser.State.Moves`: One token, and a path of them.
* `Parser.Travels`: A parser moves along a path, and keeps the count of open maps
  if it succeeds.
* `Parser.travelling`: The same as a law on runs.

## Theorems

* `Parser.State.Moves.depth_eq`: The count of open maps follows the braces.
* `Parser.State.Moves.depth_lt`: There was room for every brace that was passed.
* `Parser.travelled_mapWithin`: Maps, where the count changes.
* `Parser.travels_wholeTag`: A whole input.
-/

namespace Annotations

/-- How many maps tokens leave open: those that they open without those that they
    close. -/
def Token.openMaps (tokens : List Token) : Int :=
  tokens.countP (·.kind = .openCurly) - tokens.countP (·.kind = .closeCurly)

theorem Token.openMaps_nil : Token.openMaps [] = 0 := rfl

theorem Token.openMaps_cons (t : Token) (tokens : List Token) :
    Token.openMaps (t :: tokens) = Token.openMaps [t] + Token.openMaps tokens := by
  simp only [openMaps, List.countP_cons, List.countP_nil]
  omega

theorem Token.openMaps_of_openCurly {t : Token} (h : t.kind = .openCurly) :
    Token.openMaps [t] = 1 := by
  simp only [openMaps, List.countP_cons, List.countP_nil, h]
  decide

theorem Token.openMaps_of_closeCurly {t : Token} (h : t.kind = .closeCurly) :
    Token.openMaps [t] = -1 := by
  simp only [openMaps, List.countP_cons, List.countP_nil, h]
  decide

theorem Token.openMaps_of_ne {t : Token} (hopen : t.kind ≠ .openCurly)
    (hclose : t.kind ≠ .closeCurly) : Token.openMaps [t] = 0 := by
  simp only [openMaps, List.countP_cons, List.countP_nil, hopen, hclose, decide_false]
  decide

namespace Parser

namespace State

/-- One token is passed, and the count of open maps follows it. -/
inductive Step (s : State) : State → Prop where
  | plain : s.kind ≠ .endOfInput → s.kind ≠ .openCurly → s.kind ≠ .closeCurly → Step s s.next
  | opened : s.kind = .openCurly → s.depth < s.maxDepth →
      Step s { s with rest := s.rest.tail, depth := s.depth + 1 }
  | closed : s.kind = .closeCurly → 0 < s.depth →
      Step s { s with rest := s.rest.tail, depth := s.depth - 1 }

/-- Tokens are passed one after the other. -/
inductive Moves : State → List Token → State → Prop where
  | refl (s : State) : Moves s [] s
  | step {s u s' : State} {used : List Token} :
      s.Step u → Moves u used s' → Moves s (s.current :: used) s'

/-- A token that does not end the input is the first of those left. -/
theorem rest_eq_cons {s : State} (h : s.kind ≠ .endOfInput) :
    s.rest = s.current :: s.next.rest := by
  rcases hs : s.rest with _ | ⟨t, more⟩
  · exact absurd hs (rest_ne_nil h)
  · rw [current, next, hs]
    rfl

/-- The token that ends the input is not passed. -/
theorem Step.kind_ne {s u : State} (h : s.Step u) : s.kind ≠ .endOfInput := by
  cases h with
  | plain hend _ _ => exact hend
  | opened hkind _ => rw [hkind]; decide
  | closed hkind _ => rw [hkind]; decide

/-- A token that is passed was the first of those left, and nothing but the count
    of open maps changes with it. -/
theorem Step.rest_eq {s u : State} (h : s.Step u) : s.rest = s.current :: u.rest := by
  have hrest : u.rest = s.next.rest := by cases h <;> rfl
  rw [hrest]
  exact rest_eq_cons h.kind_ne

theorem Step.stop_eq {s u : State} (h : s.Step u) : u.stop = s.stop := by
  cases h <;> rfl

theorem Step.maxDepth_eq {s u : State} (h : s.Step u) : u.maxDepth = s.maxDepth := by
  cases h <;> rfl

theorem Step.label_eq {s u : State} (h : s.Step u) : u.label = s.label := by
  cases h <;> rfl

/-- The count of open maps follows the token that is passed. -/
theorem Step.depth_eq {s u : State} (h : s.Step u) :
    (u.depth : Int) = s.depth + Token.openMaps [s.current] := by
  cases h with
  | plain _ hopen hclose => rw [Token.openMaps_of_ne hopen hclose]; exact (Int.add_zero _).symm
  | opened hkind _ => rw [Token.openMaps_of_openCurly hkind]; exact Int.natCast_succ _
  | closed hkind hpos =>
      rw [Token.openMaps_of_closeCurly hkind]
      show ((s.depth - 1 : Nat) : Int) = s.depth + -1
      omega

/-- No step opens more maps than are allowed. -/
theorem Step.depth_le {s u : State} (h : s.Step u) (hle : s.depth ≤ s.maxDepth) :
    u.depth ≤ u.maxDepth := by
  cases h with
  | plain _ _ _ => exact hle
  | opened _ hlt => exact hlt
  | closed _ _ => exact Nat.le_trans (Nat.sub_le _ _) hle

namespace Moves

variable {s u s' : State} {used : List Token}

theorem trans {more : List Token} (h : s.Moves used u) (h' : u.Moves more s') :
    s.Moves (used ++ more) s' := by
  induction h with
  | refl _ => exact h'
  | step hstep _ ih => exact .step hstep (ih h')

/-- A path can be cut after any of its tokens. -/
theorem exists_of_append {a b : List Token} (h : s.Moves (a ++ b) s') :
    ∃ u, s.Moves a u ∧ u.Moves b s' := by
  induction a generalizing s with
  | nil => exact ⟨s, .refl s, h⟩
  | cons t a ih =>
      cases h with
      | step hstep hrest =>
          rcases ih hrest with ⟨u, ha, hb⟩
          exact ⟨u, .step hstep ha, hb⟩

/-- The tokens passed are those that are no longer left. -/
theorem rest_eq (h : s.Moves used s') : s.rest = used ++ s'.rest := by
  induction h with
  | refl _ => rfl
  | step hstep _ ih => rw [hstep.rest_eq, ih, List.cons_append]

/-- None of the tokens passed ends the input. -/
theorem inside (h : s.Moves used s') : ∀ t ∈ used, t.kind ≠ .endOfInput := by
  induction h with
  | refl _ => simp
  | step hstep _ ih => exact List.forall_mem_cons.mpr ⟨hstep.kind_ne, ih⟩

theorem stop_eq (h : s.Moves used s') : s'.stop = s.stop := by
  induction h with
  | refl _ => rfl
  | step hstep _ ih => rw [ih, hstep.stop_eq]

theorem maxDepth_eq (h : s.Moves used s') : s'.maxDepth = s.maxDepth := by
  induction h with
  | refl _ => rfl
  | step hstep _ ih => rw [ih, hstep.maxDepth_eq]

theorem label_eq (h : s.Moves used s') : s'.label = s.label := by
  induction h with
  | refl _ => rfl
  | step hstep _ ih => rw [ih, hstep.label_eq]

/-- The count of open maps follows the braces that are passed. -/
theorem depth_eq (h : s.Moves used s') : (s'.depth : Int) = s.depth + Token.openMaps used := by
  induction h with
  | refl _ => rw [Token.openMaps_nil, Int.add_zero]
  | @step s _ _ used hstep _ ih =>
      rw [ih, hstep.depth_eq, Token.openMaps_cons s.current used, Int.add_assoc]

theorem depth_le (h : s.Moves used s') (hle : s.depth ≤ s.maxDepth) :
    s'.depth ≤ s'.maxDepth := by
  induction h with
  | refl _ => exact hle
  | step hstep _ ih => exact ih (hstep.depth_le hle)

/-- There was room for every brace that was passed: fewer maps than allowed were
    open in front of it. -/
theorem depth_lt {before after : List Token} {brace : Token}
    (h : s.Moves (before ++ brace :: after) s') (hbrace : brace.kind = .openCurly) :
    s.depth + Token.openMaps before < s.maxDepth := by
  rcases h.exists_of_append with ⟨u, hbefore, hafter⟩
  rw [← hbefore.depth_eq, ← hbefore.maxDepth_eq]
  cases hafter with
  | step hstep _ =>
      cases hstep with
      | plain _ hopen _ => exact absurd hbrace hopen
      | opened _ hlt => exact Int.ofNat_lt.mpr hlt
      | closed hkind _ => exact absurd (hbrace.symm.trans hkind) (by decide)

end Moves

end State

open State

variable {α : Type} {room : Nat}

/-- What became of a parser: it moved along a path, and if it succeeded, as many
    maps are open as before. -/
inductive Travelled (s : State) : EStateM.Result Fault State α → Prop where
  | ok {a : α} {s' : State} {used : List Token} :
      s.Moves used s' → s'.depth = s.depth → Travelled s (.ok a s')
  | error {fault : Fault} {s' : State} {used : List Token} :
      s.Moves used s' → Travelled s (.error fault s')

/-- In the given room for further maps, the parser moves along a path. -/
def Travels (room : Nat) (p : Parser α) : Prop :=
  ∀ s, s.room = room → Travelled s (p s)

/-- The law that a run moves along a path, and keeps the count if it succeeds. -/
def travelling (room : Nat) : Law where
  covers s := s.room = room
  success s s' := (∃ used, s.Moves used s') ∧ s'.depth = s.depth
  failure s s' := ∃ used, s.Moves used s'
  success_refl s := ⟨⟨[], .refl s⟩, rfl⟩
  failure_refl s := ⟨[], .refl s⟩
  success_trans := by
    rintro s t s' ⟨⟨used, hmoves⟩, hdepth⟩ ⟨⟨more, hmoves'⟩, hdepth'⟩
    exact ⟨⟨used ++ more, hmoves.trans hmoves'⟩, hdepth'.trans hdepth⟩
  failure_trans := by
    rintro s t s' ⟨⟨used, hmoves⟩, -⟩ ⟨more, hmoves'⟩
    exact ⟨used ++ more, hmoves.trans hmoves'⟩
  covers_success := by
    rintro s s' hroom ⟨⟨used, hmoves⟩, hdepth⟩
    rw [← hroom, State.room, State.room, hmoves.maxDepth_eq, hdepth]
  success_next := by
    intro s hend hopen hclose
    exact ⟨⟨[s.current], .step (.plain hend hopen hclose) (.refl s.next)⟩, rfl⟩

theorem admits_travelling_iff {s : State} {r : EStateM.Result Fault State α} :
    (travelling room).Admits s r ↔ Travelled s r := by
  cases r with
  | ok a s' =>
      constructor
      · rintro ⟨⟨used, hmoves⟩, hdepth⟩
        exact .ok hmoves hdepth
      · rintro (⟨hmoves, hdepth⟩ | -)
        exact ⟨⟨_, hmoves⟩, hdepth⟩
  | error fault s' =>
      constructor
      · rintro ⟨used, hmoves⟩
        exact .error hmoves
      · rintro (- | hmoves)
        exact ⟨_, hmoves⟩

theorem governs_travelling_iff {p : Parser α} : (travelling room).Governs p ↔ Travels room p := by
  constructor
  · intro h s hroom
    exact admits_travelling_iff.mp (h s hroom)
  · intro h s hroom
    exact admits_travelling_iff.mpr (h s hroom)

theorem governsMap_travelling {map : Parser Value}
    (hmap : ∀ s, s.room = room → s.kind = .openCurly → Travelled s (map s)) :
    (travelling room).GovernsMap map :=
  fun s hroom hkind => admits_travelling_iff.mpr (hmap s hroom hkind)

theorem travels_literal : Travels room literal :=
  governs_travelling_iff.mp Law.governs_literal

theorem travels_literalValue : Travels room literalValue :=
  governs_travelling_iff.mp Law.governs_literalValue

theorem travels_element : Travels room element :=
  governs_travelling_iff.mp Law.governs_element

theorem travels_list : Travels room list :=
  governs_travelling_iff.mp Law.governs_list

theorem travels_valueWith {map : Parser Value}
    (hmap : ∀ s, s.room = room → s.kind = .openCurly → Travelled s (map s)) :
    Travels room (valueWith map) :=
  governs_travelling_iff.mp (Law.governs_valueWith (governsMap_travelling hmap))

theorem travels_entryWith {value : Parser Value} (hvalue : Travels room value) :
    Travels room (entryWith value) :=
  governs_travelling_iff.mp (Law.governs_entryWith (governs_travelling_iff.mpr hvalue))

/-- A map moves from its opening brace through its entries to its closing brace.
    The brace and the count of it are one step, since the brace is there. -/
theorem travelled_mapWithin (room : Nat) :
    ∀ s : State, s.room = room → s.kind = .openCurly → Travelled s (mapWithin room s) := by
  induction room with
  | zero =>
      intro s _ _
      exact .error (.refl s)
  | succ room ih =>
      intro s hroom hkind
      have hlt : s.depth < s.maxDepth := by
        rw [State.room] at hroom
        omega
      -- The rule counts the map and then passes the brace; both make up one step.
      set inner : State := { s with rest := s.rest.tail, depth := s.depth + 1 }
      have hopened : s.Step inner := .opened hkind hlt
      have hroom' : inner.room = room := by
        rw [State.room] at hroom ⊢
        show s.maxDepth - (s.depth + 1) = room
        omega
      have hbrace : expect .openCurly { s with depth := s.depth + 1 } = .ok s.current inner :=
        expect_of_kind hkind
      have hitems : Travelled inner (unlessAt .closeCurly
          (separated (entryWith (valueWith (mapWithin room)))) inner) :=
        admits_travelling_iff.mp (Law.governs_items (governsMap_travelling ih) inner hroom')
      rw [mapWithin, bind_ok (rfl : countOpened s = .ok () _), bind_ok hbrace]
      generalize hresult : unlessAt .closeCurly (separated (entryWith (valueWith (mapWithin room))))
        inner = result at hitems
      cases hitems with
      | error hmoves =>
          rw [bind_error hresult]
          exact .error (.step hopened hmoves)
      | @ok es t used hmoves hdepth =>
          rw [bind_ok hresult]
          by_cases hclosing : t.kind = .closeCurly
          · -- The closing brace and the end of the count are one step as well.
            have hpos : 0 < t.depth := by
              rw [hdepth]
              exact Nat.succ_pos _
            have hclosed : t.Moves [t.current]
                { t with rest := t.rest.tail, depth := t.depth - 1 } :=
              .step (.closed hclosing hpos) (.refl _)
            rw [bind_ok (expect_of_kind hclosing)]
            refine .ok (.step hopened (hmoves.trans hclosed)) ?_
            show t.depth - 1 = s.depth
            rw [hdepth]
            rfl
          · rw [bind_error (expect_of_ne hclosing)]
            exact .error (.step hopened hmoves)

/-- Maps obey the law, in whatever room there is. -/
theorem governsMap_travelling_map : (travelling room).GovernsMap map := by
  refine governsMap_travelling fun s hroom hkind => ?_
  rw [map, hroom]
  exact travelled_mapWithin room s hroom hkind

theorem travels_value : Travels room value :=
  governs_travelling_iff.mp (Law.governs_value governsMap_travelling_map)

theorem travels_entry : Travels room entry :=
  governs_travelling_iff.mp (Law.governs_entry governsMap_travelling_map)

theorem travels_entries : Travels room entries :=
  governs_travelling_iff.mp (Law.governs_entries governsMap_travelling_map)

theorem travels_attributes : Travels room attributes :=
  governs_travelling_iff.mp (Law.governs_attributes governsMap_travelling_map)

theorem travels_tag : Travels room tag :=
  governs_travelling_iff.mp (Law.governs_tag governsMap_travelling_map)

/-- Reading a whole input moves along a path, wherever it ends. -/
theorem travels_wholeTag : Travels room wholeTag :=
  governs_travelling_iff.mp (Law.governs_wholeTag governsMap_travelling_map)

end Parser

end Annotations
