import Annotations.Proofs.Parser.Calls

/-!
# The Count of Open Maps

How many maps are open is told in two ways. The parser keeps a count, which it raises
before the brace of a map is read and lowers after the closing one. The tokens that
were passed tell it by their braces: an opening brace is put on a stack, and a closing
one takes the innermost off again. A call of a rule leaves the two in agreement, also
if it fails, at whatever depth that happens.

The stack says more than the number of braces on it. The tokens that a rule passes are
nested: whatever was open outside is still open, below what they leave open themselves.
Hence no closing brace is passed whose opening one was not, and the count is never
lowered where no map is open. For the latter the rules are taken with another way of
closing maps, which need not even succeed while no map is open, and are found to be the
same rules.

Nothing is assumed about the count at the start or about the limit.

## Main definitions

* `Token.openBraces`: The stack of braces that are open after tokens.
* `Token.Nests`: Tokens whose braces are nested.
* `Parser.Tallied`, `Parser.tallying`: The count of open maps agrees with the braces.
* `Parser.mapWithinClosedBy`, `Parser.Call.runClosedBy`: The rules with another way of
  closing maps.

## Theorems

* `Token.Nests.openMaps_eq`: As many braces are left open as there are more of them than
  closing ones.
* `Parser.tallying_mapWithin`: Maps, where the count changes.
* `Parser.mapWithinClosedBy_eq`: A map is closed only while one is open.
* `Parser.Call.depth_follows_braces`: What a call of a rule leaves.
-/

namespace Annotations

namespace Token

/-- The braces that are open after tokens, the innermost one first, where some were open
    before. A closing brace closes the innermost one. -/
def openBraces (under tokens : List Token) : List Token :=
  tokens.foldl (fun opened t =>
    if t.kind = .openCurly then t :: opened
    else if t.kind = .closeCurly then opened.tail
    else opened) under

/-- The braces of tokens are nested: whatever is open outside, they close none of it, and
    above it they leave some open themselves. -/
def Nests (tokens opened : List Token) : Prop :=
  ∀ under, openBraces under tokens = opened ++ under

theorem openBraces_append (under tokens more : List Token) :
    openBraces under (tokens ++ more) = openBraces (openBraces under tokens) more :=
  List.foldl_append

theorem openBraces_openCurly {t : Token} (h : t.kind = .openCurly) (under : List Token) :
    openBraces under [t] = t :: under :=
  if_pos h

theorem openBraces_closeCurly {t : Token} (h : t.kind = .closeCurly) (under : List Token) :
    openBraces under [t] = under.tail := by
  simp [openBraces, h]

theorem openBraces_of_ne {t : Token} (hopen : t.kind ≠ .openCurly) (hclose : t.kind ≠ .closeCurly)
    (under : List Token) : openBraces under [t] = under := by
  simp [openBraces, hopen, hclose]

/-- On a stack that is high enough for all closing braces, its height follows the
    difference of braces. -/
theorem length_openBraces {under tokens : List Token} (h : tokens.length ≤ under.length) :
    ((openBraces under tokens).length : Int) = under.length + openMaps tokens := by
  induction tokens generalizing under with
  | nil => exact (Int.add_zero _).symm
  | cons t tokens ih =>
      rw [List.length_cons] at h
      rw [← List.singleton_append, openBraces_append, List.singleton_append, openMaps_cons]
      by_cases hopen : t.kind = .openCurly
      · rw [openBraces_openCurly hopen, openMaps_of_openCurly hopen,
          ih (by rw [List.length_cons]; omega), List.length_cons]
        omega
      · by_cases hclose : t.kind = .closeCurly
        · -- There are as many braces below as tokens, so there is one to be closed.
          rw [openBraces_closeCurly hclose, openMaps_of_closeCurly hclose,
            ih (by rw [List.length_tail]; omega), List.length_tail]
          omega
        · rw [openBraces_of_ne hopen hclose, openMaps_of_ne hopen hclose, ih (by omega)]
          omega

namespace Nests

variable {tokens more opened above : List Token} {brace : Token}

theorem nil : Nests [] [] :=
  fun _ => rfl

theorem append (h : Nests tokens opened) (h' : Nests more above) :
    Nests (tokens ++ more) (above ++ opened) := by
  intro under
  rw [openBraces_append, h under, h', List.append_assoc]

theorem openCurly (h : brace.kind = .openCurly) : Nests [brace] [brace] :=
  openBraces_openCurly h

theorem of_ne (hopen : brace.kind ≠ .openCurly) (hclose : brace.kind ≠ .closeCurly) :
    Nests [brace] [] :=
  openBraces_of_ne hopen hclose

/-- A closing brace closes the innermost one that the tokens before it left open. -/
theorem closed {innermost : Token} (h : Nests tokens (innermost :: opened))
    (hclose : brace.kind = .closeCurly) : Nests (tokens ++ [brace]) opened := by
  intro under
  rw [openBraces_append, h under, openBraces_closeCurly hclose]
  rfl

/-- What nested tokens leave open is what is open after them if nothing was before. -/
theorem opened_eq (h : Nests tokens opened) : opened = openBraces [] tokens := by
  rw [h [], List.append_nil]

/-- Nested tokens have as many more opening braces than closing ones as they leave
    open. -/
theorem openMaps_eq (h : Nests tokens opened) : openMaps tokens = opened.length := by
  -- The tokens themselves are a stack that is high enough.
  have hlength := length_openBraces (le_refl tokens.length)
  rw [h tokens, List.length_append] at hlength
  omega

end Nests

end Token

namespace Parser

open State Token

variable {α β : Type}

/-- Between two states, tokens are passed that leave some braces open, and the count of
    open maps rises by these. -/
def Tallied (s : State) (opened : List Token) (s' : State) : Prop :=
  ∃ used, s.Passed used s' ∧ Nests used opened ∧ s'.depth = s.depth + opened.length

namespace Tallied

variable {s t s' : State} {opened above : List Token}

theorem refl (s : State) : Tallied s [] s :=
  ⟨[], .refl s, .nil, rfl⟩

theorem trans (h : Tallied s opened t) (h' : Tallied t above s') :
    Tallied s (above ++ opened) s' := by
  rcases h with ⟨used, hpassed, hnests, hdepth⟩
  rcases h' with ⟨more, hpassed', hnests', hdepth'⟩
  refine ⟨used ++ more, hpassed.trans hpassed', hnests.append hnests', ?_⟩
  rw [hdepth', hdepth, List.length_append]
  omega

/-- A brace that opens a map is passed with the map counted. -/
theorem opening (h : s.kind = .openCurly) :
    Tallied s [s.current] { s with rest := s.rest.tail, depth := s.depth + 1 } :=
  ⟨[s.current], ⟨rest_eq_cons (by rw [h]; decide), rfl⟩, .openCurly h, rfl⟩

/-- A brace that closes the innermost map is passed with the map no longer counted. -/
theorem closing {innermost : Token} (h : Tallied s (innermost :: opened) t)
    (hkind : t.kind = .closeCurly) :
    Tallied s opened { t with rest := t.rest.tail, depth := t.depth - 1 } := by
  rcases h with ⟨used, hpassed, hnests, hdepth⟩
  refine ⟨used ++ [t.current], hpassed.trans ⟨rest_eq_cons (by rw [hkind]; decide), rfl⟩,
    hnests.closed hkind, ?_⟩
  show t.depth - 1 = s.depth + opened.length
  rw [hdepth, List.length_cons]
  omega

/-- A token that is no brace. -/
theorem next (hend : s.kind ≠ .endOfInput) (hopen : s.kind ≠ .openCurly)
    (hclose : s.kind ≠ .closeCurly) : Tallied s [] s.next :=
  ⟨[s.current], passed_next hend, .of_ne hopen hclose, rfl⟩

end Tallied

/-- The law that the count of open maps follows the braces, and that a success leaves no
    map open. -/
def tallying : Law where
  covers _ := True
  success s s' := Tallied s [] s'
  failure s s' := ∃ opened, Tallied s opened s'
  success_refl := .refl
  failure_refl s := ⟨[], .refl s⟩
  success_trans h h' := h.trans h'
  failure_trans := by
    rintro s t s' h ⟨opened, h'⟩
    exact ⟨opened ++ [], h.trans h'⟩
  covers_success _ _ := trivial
  success_next := .next

/-- A map is open from its opening brace to its closing one, below those maps in it that
    are left open if it fails. -/
theorem tallying_mapWithin (room : Nat) : tallying.GovernsMap (mapWithin room) := by
  induction room with
  | zero =>
      intro s _ _
      exact Law.admits_stay_error s _
  | succ room ih =>
      intro s _ hkind
      -- The rule counts the map and then passes the brace.
      set inner : State := { s with rest := s.rest.tail, depth := s.depth + 1 }
      have hopening : Tallied s [s.current] inner := .opening hkind
      have hbrace : expect .openCurly { s with depth := s.depth + 1 } = .ok s.current inner :=
        expect_of_kind hkind
      have hitems := Law.governs_items ih inner trivial
      rw [mapWithin, bind_ok (rfl : countOpened s = .ok () _), bind_ok hbrace]
      cases hresult : unlessAt .closeCurly (separated (entryWith (valueWith (mapWithin room))))
        inner with
      | error fault t =>
          -- The map itself is left open below what its entries leave open.
          rw [hresult] at hitems
          rcases hitems with ⟨opened, hitems⟩
          rw [bind_error hresult]
          exact ⟨opened ++ [s.current], hopening.trans hitems⟩
      | ok es t =>
          rw [hresult] at hitems
          have hleft : Tallied s [s.current] t := hopening.trans hitems
          rw [bind_ok hresult]
          by_cases hclosing : t.kind = .closeCurly
          · rw [bind_ok (expect_of_kind hclosing)]
            exact hleft.closing hclosing
          · rw [bind_error (expect_of_ne hclosing)]
            exact ⟨[s.current], hleft⟩

theorem tallying_map : tallying.GovernsMap map :=
  fun s => tallying_mapWithin s.room s

theorem admits_forget {law : Law} {p : Parser α} {s : State} (hs : law.covers s)
    (h : law.Admits s (p s)) : law.Admits s (forget p s) :=
  h.bind hs fun _ => Law.governs_pure ()

/-- What comes of a call of a rule, where a map is called at its brace. -/
theorem Call.tallying_run {call : Call} {s : State} (hrule : call.isRule = true)
    (hmap : call = .map → s.kind = .openCurly) : tallying.Admits s (call.run s) := by
  cases call with
  | value => exact admits_forget trivial (Law.governs_value tallying_map s trivial)
  | literal => exact admits_forget trivial (Law.governs_literal s trivial)
  | literalValue => exact admits_forget trivial (Law.governs_literalValue s trivial)
  | list => exact admits_forget trivial (Law.governs_list s trivial)
  | map => exact admits_forget trivial (tallying_map s trivial (hmap rfl))
  | entry => exact admits_forget trivial (Law.governs_entry tallying_map s trivial)
  | entries => exact admits_forget trivial (Law.governs_entries tallying_map s trivial)
  | attributes => exact admits_forget trivial (Law.governs_attributes tallying_map s trivial)
  | tag => exact admits_forget trivial (Law.governs_tag tallying_map s trivial)
  | current | advance | unexpected _ | expect _ | expectOr _ _ | enter | leave => cases hrule

section ClosedBy

variable {close : Parser Unit}

/-- Entries between braces, where a way of closing a map is given. -/
def mapWithinClosedBy (close : Parser Unit) : Nat → Parser Value
  | 0 => tooDeep
  | room + 1 => do
    countOpened
    let _ ← expect .openCurly
    let entries ← unlessAt .closeCurly
      (separated (entryWith (valueWith (mapWithinClosedBy close room))))
    let _ ← expect .closeCurly
    close
    return .map entries

/-- A map in the room that there is, where a way of closing it is given. -/
def mapClosedBy (close : Parser Unit) : Parser Value :=
  fun s => mapWithinClosedBy close s.room s

/-- Entries between parentheses, where a rule for entries is given. -/
def attributesWith (entries : Parser (List Entry)) : Parser (List Entry) := do
  let _ ← expect .openParen
  refuseIf (·.kind = .closeParen) (fun _ => .emptyAttributes)
  let attrs ← entries
  let _ ← expect .closeParen
  return attrs

/-- A tag, where a rule for its attributes is given. -/
def tagWith (attributes : Parser (List Entry)) : Parser Tag := do
  let hash ← expect .hash
  let opening ← expect .openBracket
  adjacent hash opening
  let identity ← expect .identifier
  let attrs ← onlyAt .openParen attributes
  let _ ← expect .closeBracket
  return ⟨identity.text, attrs⟩

/-- What a call does to a parser if the maps that it reads are closed in the given way. -/
def Call.runClosedBy (close : Parser Unit) : Call → Parser Unit
  | value => forget (valueWith (mapClosedBy close))
  | map => forget (mapClosedBy close)
  | entry => forget (entryWith (valueWith (mapClosedBy close)))
  | entries => forget (separated (entryWith (valueWith (mapClosedBy close))))
  | attributes =>
      forget (attributesWith (separated (entryWith (valueWith (mapClosedBy close)))))
  | tag =>
      forget (tagWith (attributesWith (separated (entryWith (valueWith (mapClosedBy close))))))
  | call => call.run

/-- Two sequences with one first parser come to the same if what follows does, from where
    the first one leads. -/
theorem bind_congr_of_ok {p : Parser α} {f g : α → Parser β} {s : State}
    (h : ∀ a t, p s = .ok a t → f a t = g a t) : (p >>= f) s = (p >>= g) s := by
  cases hp : p s with
  | ok a t => rw [bind_ok hp, bind_ok hp, h a t hp]
  | error fault t => rw [bind_error hp, bind_error hp]

/-- A map is closed only while one is open, so what closing does otherwise is of no
    consequence. -/
theorem mapWithinClosedBy_eq (hclose : ∀ t : State, 0 < t.depth → close t = leave t) (room : Nat) :
    mapWithinClosedBy close room = mapWithin room := by
  induction room with
  | zero => rfl
  | succ room ih =>
      funext s
      rw [mapWithinClosedBy, mapWithin, ih]
      rw [bind_ok (rfl : countOpened s = .ok () _), bind_ok (rfl : countOpened s = .ok () _)]
      refine bind_congr_of_ok fun _ t hopening => ?_
      refine bind_congr_of_ok fun es u hentries => ?_
      refine bind_congr_of_ok fun _ v hclosing => ?_
      -- Neither the braces nor the entries change the count, so the map is still counted.
      have hitems : u.depth = t.depth := by
        have hadmits := Law.governs_items (tallying_mapWithin room) t trivial
        rw [hentries] at hadmits
        rcases hadmits with ⟨-, -, -, hdepth⟩
        exact hdepth
      have hdepth : v.depth = s.depth + 1 := by
        rw [expect_eq_ok hclosing]
        show u.depth = s.depth + 1
        rw [hitems, expect_eq_ok hopening]
        rfl
      exact bind_congr_left (hclose v (by omega))

theorem Call.runClosedBy_eq (hclose : ∀ t : State, 0 < t.depth → close t = Parser.leave t)
    (call : Call) : call.runClosedBy close = call.run := by
  have hmap : mapClosedBy close = Parser.map := by
    funext s
    rw [mapClosedBy, mapWithinClosedBy_eq hclose, Parser.map]
  -- The other rules come to maps only through this one.
  cases call with
  | value | map | entry | entries | attributes | tag => rw [runClosedBy, hmap]; rfl
  | current | advance | unexpected _ | expect _ | expectOr _ _ | enter | leave | literal
  | literalValue | list => rfl

end ClosedBy

/-- What comes of a call of a rule, without telling success and failure apart. -/
theorem Call.exists_tallied {call : Call} {s : State} (hrule : call.isRule = true)
    (hmap : call = .map → s.kind = .openCurly) :
    ∃ opened, Tallied s opened (finalState (call.run s)) ∧
      ∀ s', call.run s = .ok () s' → opened = [] := by
  have hadmits := tallying_run hrule hmap
  cases hrun : call.run s with
  | ok u s' =>
      rw [hrun] at hadmits
      exact ⟨[], hadmits, fun _ _ => rfl⟩
  | error fault s' =>
      rw [hrun] at hadmits
      rcases hadmits with ⟨opened, htallied⟩
      exact ⟨opened, htallied, fun _ hok => nomatch hok⟩

/-- A call of a rule leaves the count of open maps in agreement with the braces of the
    tokens that it passed, whether it succeeds or fails. The count rises by as many as
    there are more opening braces than closing ones. These are the maps left open, of
    which there are none after a success. Nothing that was open before is closed, and no
    map is closed while none is open, for otherwise it would matter what closing does
    then. -/
theorem Call.depth_follows_braces (call : Call) (s : State) (hrule : call.isRule = true)
    (hmap : call = .map → s.kind = .openCurly) :
    let s' := finalState (call.run s)
    ∃ used, s.Passed used s' ∧
      (s'.depth : Int) - s.depth = openMaps used ∧
      (call.run s = .ok () s' → s'.depth = s.depth) ∧
      s'.depth = s.depth + (openBraces [] used).length ∧
      (∀ under, openBraces under used = openBraces [] used ++ under) ∧
      ∀ close : Parser Unit, (∀ t, 0 < t.depth → close t = Parser.leave t) →
        call.runClosedBy close s = call.run s := by
  intro s'
  rcases exists_tallied hrule hmap with ⟨opened, ⟨used, hpassed, hnests, hdepth⟩, hok⟩
  refine ⟨used, hpassed, ?_, ?_, ?_, ?_, ?_⟩
  · rw [hnests.openMaps_eq, hdepth]
    omega
  · intro hrun
    rw [hdepth, hok s' hrun]
    rfl
  · rw [← hnests.opened_eq]
    exact hdepth
  · rw [← hnests.opened_eq]
    exact hnests
  · intro close hclose
    rw [runClosedBy_eq hclose call]

/-- With one map open of three that are allowed, `{a = {}, b = {c` comes to an end with two
    more of them open, and the first one is still open below them. -/
theorem Call.depth_follows_braces_unclosed :
    ∃ s s' : State, s.kind = .openCurly ∧ s.depth = 1 ∧ s.maxDepth = 3 ∧
      finalState (Call.map.run s) = s' ∧ s'.rest = [] ∧ s'.depth = 3 ∧
      openMaps s.rest = 2 ∧ (openBraces [] s.rest).length = 2 ∧
      ∀ under, openBraces under s.rest = openBraces [] s.rest ++ under := by
  let token : Token.Kind → String → Nat → Token := fun kind text offset =>
    ⟨kind, text, .ofLength "x" offset 1⟩
  let s' : State := ⟨[], .endOfInput (.ofOffset "x" 15), rfl, "x", 3, 3⟩
  let s : State := { s' with
    rest := [token .openCurly "\x7b" 0, token .identifier "a" 1, token .assignment "=" 3,
      token .openCurly "\x7b" 5, token .closeCurly "\x7d" 6, token .comma "," 7,
      token .identifier "b" 9, token .assignment "=" 11, token .openCurly "\x7b" 13,
      token .identifier "c" 14]
    depth := 1 }
  have hrun : finalState (Call.map.run s) = s' := rfl
  rcases depth_follows_braces .map s rfl (fun _ => rfl) with
    ⟨used, hpassed, hmaps, -, hdepth, hnests, -⟩
  rw [hrun] at hpassed hmaps hdepth
  have hused : s.rest = used := hpassed.rest_eq.trans (List.append_nil used)
  rw [← hused] at hmaps hdepth hnests
  have hleft : (openBraces [] s.rest).length = 2 := by
    have hrises : 3 = 1 + (openBraces [] s.rest).length := hdepth
    omega
  exact ⟨s, s', rfl, rfl, rfl, hrun, rfl, rfl, hmaps.symm, hleft, hnests⟩

end Parser

end Annotations
