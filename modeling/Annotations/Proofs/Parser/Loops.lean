import Annotations.Proofs.Parser.Moves

/-!
# Loops End by Themselves

Two rules of the parser repeat something: items are read as long as there are
commas, and maps are read inside of maps. Both are defined with a bound, the first
by the tokens left and the second by the room for further maps. Nothing in the
grammar speaks of these bounds, and this module shows that neither of them ever
decides anything.

For lists of items, `Loop` says what repeating comes to without a bound. It is an
inductive relation, so whatever it gives is the outcome of a loop that ends. The
bounded rule has this outcome, since every comma is one of the tokens left: where
the bound is used up there are no tokens, and no comma either. The token at the end
is what makes this work. The parser does not move past it, but it is no comma, so
no loop goes on there.

For maps, `map_eq` is the rule as it reads without a bound. The room is used up by
the maps that are open, and a map gives its room back when it is closed. So the room
that the bounded rule has kept for what is inside a map is the room that there is.

## Main definitions

* `Parser.Loop`: What repeating items comes to.

## Theorems

* `Parser.Loop.unique`: A loop has one outcome.
* `Parser.loop_separated`: A list of items is what its loop comes to.
* `Parser.map_eq`: A map, without a bound on the maps inside of it.
-/

namespace Annotations

namespace Parser

open State

variable {α β : Type} {room : Nat}

/-- An outcome with one more item in front. -/
def prepend (a : α) : EStateM.Result Fault State (List α) → EStateM.Result Fault State (List α)
  | .ok as s => .ok (a :: as) s
  | .error fault s => .error fault s

/-- Reading an item, and after each comma another one, comes to an outcome. -/
inductive Loop (item : Parser α) : State → EStateM.Result Fault State (List α) → Prop where
  /-- The item fails. -/
  | failed {s t : State} {fault : Fault} :
      item s = .error fault t → Loop item s (.error fault t)
  /-- No comma follows the item. -/
  | last {s t : State} {a : α} :
      item s = .ok a t → t.kind ≠ .comma → Loop item s (.ok [a] t)
  /-- A comma follows the item, and what comes after it decides. -/
  | more {s t : State} {a : α} {r : EStateM.Result Fault State (List α)} :
      item s = .ok a t → t.kind = .comma → Loop item t.next r → Loop item s (prepend a r)

/-- A loop has one outcome. -/
theorem Loop.unique {item : Parser α} {s : State} {r r' : EStateM.Result Fault State (List α)}
    (h : Loop item s r) (h' : Loop item s r') : r = r' := by
  induction h generalizing r' with
  | failed hitem =>
      cases h' with
      | failed hitem' =>
          cases hitem.symm.trans hitem'
          rfl
      | last hitem' _ | more hitem' _ _ => cases hitem.symm.trans hitem'
  | last hitem hkind =>
      cases h' with
      | failed hitem' => cases hitem.symm.trans hitem'
      | last hitem' _ =>
          cases hitem.symm.trans hitem'
          rfl
      | more hitem' hcomma _ =>
          cases hitem.symm.trans hitem'
          exact absurd hcomma hkind
  | more hitem hcomma _ ih =>
      cases h' with
      | failed hitem' => cases hitem.symm.trans hitem'
      | last hitem' hkind =>
          cases hitem.symm.trans hitem'
          exact absurd hcomma hkind
      | more hitem' _ hrest =>
          cases hitem.symm.trans hitem'
          rw [ih hrest]

/-- A parser that moves along a path leaves the room as it is if it succeeds. -/
theorem Travelled.room_eq {p : Parser α} {s t : State} {a : α} (h : Travelled s (p s))
    (hp : p s = .ok a t) : t.room = s.room := by
  rw [hp] at h
  cases h with
  | ok hmoves hdepth => rw [State.room, State.room, hmoves.maxDepth_eq, hdepth]

/-- A list of items, up to a bound that the tokens left do not exceed. -/
theorem loop_separatedUpTo {item : Parser α} (hitem : Travels room item) (n : Nat) :
    ∀ s : State, s.room = room → s.rest.length ≤ n → Loop item s (separatedUpTo item n s) := by
  induction n with
  | zero =>
      intro s hroom hn
      unfold separatedUpTo
      cases hs : item s with
      | error fault t =>
          rw [bind_error hs]
          exact .failed hs
      | ok a t =>
          -- No token is left, so what follows the item is the end of the input.
          have hkind : t.kind ≠ .comma := by
            have htravelled := hitem s hroom
            rw [hs] at htravelled
            cases htravelled with
            | ok hmoves _ =>
                have hlength := congrArg List.length hmoves.rest_eq
                rw [List.length_append] at hlength
                have hrest : t.rest = [] := List.length_eq_zero_iff.mp (by omega)
                rw [State.kind, State.current, hrest, List.headD_nil, t.stop_kind]
                simp
          rw [bind_ok hs]
          exact .last hs hkind
  | succ n ih =>
      intro s hroom hn
      unfold separatedUpTo
      cases hs : item s with
      | error fault t =>
          rw [bind_error hs]
          exact .failed hs
      | ok a t =>
          have htravelled := hitem s hroom
          rw [bind_ok hs]
          by_cases hcomma : t.kind = .comma
          · have hroom' : t.next.room = room := (htravelled.room_eq hs).trans hroom
            -- The comma is one of the tokens left, and is not left behind it.
            have hshorter : t.next.rest.length ≤ n := by
              rw [hs] at htravelled
              cases htravelled with
              | ok hmoves _ =>
                  have hlength := congrArg List.length hmoves.rest_eq
                  have hrest := congrArg List.length (t.rest_eq_cons (by simp [hcomma]))
                  rw [List.length_append] at hlength
                  rw [List.length_cons] at hrest
                  omega
            have hloop := Loop.more hs hcomma (ih t.next hroom' hshorter)
            have honly : onlyAt .comma (advance >>= fun _ => separatedUpTo item n) t =
                separatedUpTo item n t.next := by
              rw [onlyAt, if_pos hcomma, bind_ok (rfl : advance t = .ok t.current t.next)]
            generalize separatedUpTo item n t.next = result at hloop honly
            cases result with
            | ok as u =>
                rw [bind_ok honly]
                exact hloop
            | error fault u =>
                rw [bind_error honly]
                exact hloop
          · rw [bind_ok (by rw [onlyAt, if_neg hcomma])]
            exact .last hs hcomma

/-- A list of items is what its loop comes to. -/
theorem loop_separated {item : Parser α} (hitem : Travels room item) {s : State}
    (hroom : s.room = room) : Loop item s (separated item s) :=
  loop_separatedUpTo hitem s.rest.length s hroom (Nat.le_refl _)

/-- A loop over another item that does the same in the room that there is. -/
theorem Loop.congr {item other : Parser α} (hitem : Travels room item)
    (hother : ∀ s, s.room = room → other s = item s) {s : State} (hroom : s.room = room)
    {r : EStateM.Result Fault State (List α)} (h : Loop item s r) : Loop other s r := by
  induction h with
  | failed hs => exact .failed ((hother _ hroom).trans hs)
  | last hs hkind => exact .last ((hother _ hroom).trans hs) hkind
  | more hs hcomma _ ih =>
      exact .more ((hother _ hroom).trans hs) hcomma
        (ih (((hitem _ hroom).room_eq hs).trans hroom))

/-- Sequences that start alike go on alike. -/
theorem bind_congr_left {p q : Parser α} {f : α → Parser β} {s : State} (h : p s = q s) :
    (p >>= f) s = (q >>= f) s := by
  show EStateM.bind p f s = EStateM.bind q f s
  rw [EStateM.bind, EStateM.bind, h]

/-- A value inside a map is read as any other in the room that is left. -/
theorem valueWith_mapWithin {s : State} (hroom : s.room = room) :
    valueWith (mapWithin room) s = value s := by
  unfold value valueWith map
  rw [hroom]

/-- An entry inside a map is read as any other in the room that is left. -/
theorem entryWith_mapWithin {s : State} (hroom : s.room = room) :
    entryWith (valueWith (mapWithin room)) s = entry s := by
  unfold entry entryWith
  by_cases hname : s.kind = .identifier
  · rw [bind_ok (expect_of_kind hname), bind_ok (expect_of_kind hname)]
    by_cases hsign : s.next.kind = .assignment
    · rw [bind_ok (expect_of_kind hsign), bind_ok (expect_of_kind hsign)]
      have hnext : s.next.next.room = room := hroom
      exact bind_congr_left (valueWith_mapWithin hnext)
    · rw [bind_error (expect_of_ne hsign), bind_error (expect_of_ne hsign)]
  · rw [bind_error (expect_of_ne hname), bind_error (expect_of_ne hname)]

/-- The entries inside a map are read as any others in the room that is left. -/
theorem separated_mapWithin {s : State} (hroom : s.room = room) :
    separated (entryWith (valueWith (mapWithin room))) s = entries s := by
  have hinside : Travels room (entryWith (valueWith (mapWithin room))) :=
    travels_entryWith (travels_valueWith (travelled_mapWithin room))
  have hloop := (loop_separated hinside hroom).congr hinside
    (fun t ht => (entryWith_mapWithin ht).symm) hroom
  exact hloop.unique (loop_separated travels_entry hroom)

/-- A map, without a bound on the maps inside of it: whether there is room for it is
    asked when it is opened, and only then. -/
theorem map_eq (s : State) :
    map s = (do
      enter
      let _ ← expect .openCurly
      let es ← unlessAt .closeCurly entries
      let _ ← expect .closeCurly
      leave
      return .map es : Parser Value) s := by
  unfold map
  rcases hroom : s.room with _ | room
  · have hfull : enter s = tooDeep s := by rw [enter, if_pos hroom]
    rw [bind_error hfull]
    rfl
  · set opened : State := { s with depth := s.depth + 1 }
    have henter : enter s = .ok () opened := by
      rw [enter, if_neg (by omega)]
      rfl
    have hopened : opened.room = room := by
      unfold State.room at hroom ⊢
      show s.maxDepth - (s.depth + 1) = room
      omega
    unfold mapWithin
    rw [bind_ok henter, bind_ok (rfl : countOpened s = .ok () opened)]
    by_cases hbrace : opened.kind = .openCurly
    · have hnext : opened.next.room = room := hopened
      have hitems : unlessAt .closeCurly (separated (entryWith (valueWith (mapWithin room))))
          opened.next = unlessAt .closeCurly entries opened.next := by
        rw [unlessAt, unlessAt, separated_mapWithin hnext]
      rw [bind_ok (expect_of_kind hbrace), bind_ok (expect_of_kind hbrace)]
      exact bind_congr_left hitems
    · rw [bind_error (expect_of_ne hbrace), bind_error (expect_of_ne hbrace)]

end Parser

end Annotations
