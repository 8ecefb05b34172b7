import Annotations.Proofs.Parser.Cursor
import Annotations.Proofs.Parser.Loops
import Annotations.Proofs.Parser.NestingLimit

/-!
# Driving a Parser by Hand

A parser can be called rule by rule, in any order, and it can be used on after a
rule has failed. Nothing is taken back then, neither tokens nor open maps, so the
states that come up are more than those of reading an input from its start. Even so
every one of them stands at a token of its input, under the same limit, with no more
maps open than that limit allows.

`Onward` is what a single call can do to a state, and it is closed under sequences,
so the invariant of any number of calls is that of one. Most calls are rules, and a
rule moves along a path. There is one exception: a map is counted before its brace is
read, and if the brace is not there, the count stays while no token is passed.

## Main definitions

* `Parser.Call`, `Parser.Call.run`: What can be called, and what it does.
* `Parser.State.afterCalls`: The state after a number of calls.
* `Parser.State.Onward`: What a call can do to a state.
* `Parser.State.Within`: A state stands at a token of an input.
* `Parser.LoopsEnd`: What is repeated from a state on comes to an end by itself.

## Theorems

* `Parser.Call.onward`, `Parser.State.onward_afterCalls`: One call, and any number.
* `Parser.Call.exists_took`: A rule that succeeds takes at least one token.
* `Parser.Call.eq_of_error`: Calls that fail without leaving a trace.
* `Parser.State.within_afterCalls`: The invariant of any sequence of calls.
-/

namespace Annotations

open Grammar

namespace Parser

/-- What can be called on a parser. -/
inductive Call where
  | current
  | advance
  | unexpected (expected : String)
  | expect (kind : Token.Kind)
  /-- Expects a token, and fails with a given fault if there is one. -/
  | expectOr (kind : Token.Kind) (fault : Option Fault)
  | enter
  | leave
  | value
  | literal
  | literalValue
  | list
  | map
  | entry
  | entries
  | attributes
  | tag
deriving DecidableEq, Repr

/-- A parser without its result. -/
def forget {α : Type} (p : Parser α) : Parser Unit := do
  let _ ← p
  return ()

namespace Call

/-- What a call does to a parser, without the result that it gives. -/
def run : Call → Parser Unit
  | current => forget Parser.current
  | advance => forget Parser.advance
  | unexpected expected => Parser.unexpected expected
  | expect kind => forget (Parser.expect kind)
  | expectOr kind none => forget (Parser.expect kind)
  | expectOr kind (some fault) => forget (Parser.expectOr kind fault)
  | enter => Parser.enter
  | leave => Parser.leave
  | value => forget Parser.value
  | literal => forget Parser.literal
  | literalValue => forget Parser.literalValue
  | list => forget Parser.list
  | map => forget Parser.map
  | entry => forget Parser.entry
  | entries => forget Parser.entries
  | attributes => forget Parser.attributes
  | tag => forget Parser.tag

/-- The calls that are rules of the grammar. -/
def isRule : Call → Bool
  | value | literal | literalValue | list | map | entry | entries | attributes | tag => true
  | _ => false

/-- The calls that do what they do as a whole or not at all. -/
def isWhole : Call → Bool
  | expect _ | expectOr _ _ | literal | enter => true
  | _ => false

end Call

section Forget

variable {α : Type} {p : Parser α} {s s' : State}

theorem forget_eq_ok_iff {u : Unit} : forget p s = .ok u s' ↔ ∃ a, p s = .ok a s' := by
  unfold forget
  rw [bind_eq_ok_iff]
  constructor
  · intro h
    rcases h with ⟨a, t, ha, hpure⟩
    cases hpure
    exact ⟨a, ha⟩
  · intro h
    rcases h with ⟨a, ha⟩
    exact ⟨a, s', ha, rfl⟩

theorem forget_eq_error_iff {fault : Fault} :
    forget p s = .error fault s' ↔ p s = .error fault s' := by
  unfold forget
  rw [bind_eq_error_iff]
  constructor
  · intro h
    rcases h with h | ⟨a, t, -, hpure⟩
    · exact h
    · cases hpure
  · exact Or.inl

theorem finalState_forget (p : Parser α) (s : State) :
    finalState (forget p s) = finalState (p s) := by
  unfold forget
  cases hp : p s with
  | ok a t => rw [bind_ok hp]; rfl
  | error fault t => rw [bind_error hp]; rfl

end Forget

namespace State

/-- The state after a number of calls, of which any may fail. -/
def afterCalls (s : State) (calls : List Call) : State :=
  calls.foldl (fun s call => finalState (call.run s)) s

/-- What a call can do to a state: tokens are passed, and no more maps are open than
    allowed unless there were before. -/
structure Onward (s s' : State) : Prop where
  passed : ∃ used, s.Passed used s'
  label_eq : s'.label = s.label
  maxDepth_eq : s'.maxDepth = s.maxDepth
  depth_le : s.depth ≤ s.maxDepth → s'.depth ≤ s'.maxDepth

namespace Onward

variable {s t s' : State}

theorem refl (s : State) : s.Onward s :=
  ⟨⟨[], .refl s⟩, rfl, rfl, id⟩

theorem trans (h : s.Onward t) (h' : t.Onward s') : s.Onward s' where
  passed := by
    rcases h.passed with ⟨used, hused⟩
    rcases h'.passed with ⟨more, hmore⟩
    exact ⟨used ++ more, hused.trans hmore⟩
  label_eq := h'.label_eq.trans h.label_eq
  maxDepth_eq := h'.maxDepth_eq.trans h.maxDepth_eq
  depth_le := fun hle => h'.depth_le (h.depth_le hle)

end Onward

theorem Moves.onward {s s' : State} {used : List Token} (h : s.Moves used s') :
    s.Onward s' where
  passed := ⟨used, h.rest_eq, h.stop_eq⟩
  label_eq := h.label_eq
  maxDepth_eq := h.maxDepth_eq
  depth_le := h.depth_le

/-- Moving past the current token, which stays where it is at the end. -/
theorem onward_next (s : State) : s.Onward s.next where
  passed := by
    by_cases hrest : s.rest = []
    · exact ⟨[], by simp [next, hrest], rfl⟩
    · exact ⟨[s.rest.head hrest], by simp [next], rfl⟩
  label_eq := rfl
  maxDepth_eq := rfl
  depth_le := id

/-- Another count of open maps that the limit allows. -/
theorem onward_depth {s : State} {depth : Nat} (h : s.depth ≤ s.maxDepth → depth ≤ s.maxDepth) :
    s.Onward { s with depth := depth } where
  passed := ⟨[], rfl, rfl⟩
  label_eq := rfl
  maxDepth_eq := rfl
  depth_le := h

end State

open State

variable {α : Type} {room : Nat}

theorem onward_of_travelled {s : State} {r : EStateM.Result Fault State α}
    (h : Travelled s r) : s.Onward (finalState r) := by
  cases h with
  | ok hmoves _ => exact hmoves.onward
  | error hmoves => exact hmoves.onward

/-- A rule that moves along a path. -/
theorem onward_forget (p : Parser α) (s : State) (h : Travelled s (p s)) :
    s.Onward (finalState (forget p s)) := by
  rw [finalState_forget]
  exact onward_of_travelled h

/-- A token is expected, and passed or left where it is. -/
theorem onward_expectOr (kind : Token.Kind) (fault : Fault) (s : State) :
    s.Onward (finalState (expectOr kind fault s)) := by
  unfold expectOr
  split
  · exact onward_next s
  · exact .refl s

/-- Opening a map raises the count only if there is room. -/
theorem onward_enter (s : State) : s.Onward (finalState (enter s)) := by
  unfold enter
  by_cases hroom : s.room = 0
  · rw [if_pos hroom]
    exact .refl s
  · rw [if_neg hroom]
    refine onward_depth (fun _ => ?_)
    unfold State.room at hroom
    omega

/-- A map that is read where there is no brace fails after it has been counted. -/
theorem finalState_map_of_ne {s : State} (hkind : s.kind ≠ .openCurly) :
    finalState (map s) = finalState (enter s) := by
  rw [map_eq]
  cases henter : enter s with
  | error fault t =>
      rw [bind_error henter]
      rfl
  | ok u t =>
      -- Counting the map does not change the current token.
      have hcurrent : t.kind = s.kind := by
        unfold enter at henter
        split at henter
        · cases henter
        · cases henter
          rfl
      rw [bind_ok henter, bind_error (expect_of_ne (by rw [hcurrent]; exact hkind))]
      rfl

theorem onward_map (s : State) : s.Onward (finalState (map s)) := by
  by_cases hkind : s.kind = .openCurly
  · exact onward_of_travelled (travelled_mapWithin s.room s rfl hkind)
  · rw [finalState_map_of_ne hkind]
    exact onward_enter s

/-- What a call can do to a state. -/
theorem Call.onward (call : Call) (s : State) : s.Onward (finalState (call.run s)) := by
  cases call with
  | current => exact .refl s
  | advance => exact onward_next s
  | unexpected expected => exact .refl s
  | expect kind =>
      unfold run
      rw [finalState_forget]
      exact onward_expectOr kind _ s
  | expectOr kind fault =>
      cases fault with
      | none =>
          unfold run
          rw [finalState_forget]
          exact onward_expectOr kind _ s
      | some fault =>
          unfold run
          rw [finalState_forget]
          exact onward_expectOr kind fault s
  | enter => exact onward_enter s
  | leave => exact onward_depth (fun hle => Nat.le_trans (Nat.sub_le _ _) hle)
  | map =>
      unfold run
      rw [finalState_forget]
      exact onward_map s
  -- The other rules move along a path, whatever the current token is.
  | value => exact onward_forget _ s (travels_value s rfl)
  | literal => exact onward_forget _ s (travels_literal s rfl)
  | literalValue => exact onward_forget _ s (travels_literalValue s rfl)
  | list => exact onward_forget _ s (travels_list s rfl)
  | entry => exact onward_forget _ s (travels_entry s rfl)
  | entries => exact onward_forget _ s (travels_entries s rfl)
  | attributes => exact onward_forget _ s (travels_attributes s rfl)
  | tag => exact onward_forget _ s (travels_tag s rfl)

/-- What any number of calls can do to a state. -/
theorem State.onward_afterCalls (s : State) (calls : List Call) : s.Onward (s.afterCalls calls) := by
  induction calls generalizing s with
  | nil => exact .refl s
  | cons call calls ih => exact (call.onward s).trans (ih (finalState (call.run s)))

theorem State.afterCalls_append (s : State) (earlier later : List Call) :
    s.afterCalls (earlier ++ later) = (s.afterCalls earlier).afterCalls later :=
  List.foldl_append

/-- A value is written by at least one token. -/
theorem derivesValue_ne_nil {ts : List Token} {v : Value} (h : DerivesValue ts v) : ts ≠ [] := by
  cases h with
  | literal hl _ =>
      rcases derivesLiteral_singleton hl with ⟨t, rfl, -⟩
      simp
  | list _ _ _ _ | emptyMap _ _ | map _ _ _ => simp

theorem accepts_map :
    Accepts room map fun ts v => DerivesValue ts v ∧ v.nesting ≤ room ∧ ∃ es, v = .map es := by
  intro s v s' hroom
  rw [map, hroom]
  exact accepts_mapWithin room s v s' hroom

/-- A rule that accepts only tokens of which there is at least one. -/
theorem Accepts.exists_took {p : Parser α} {s s' : State} {R : List Token → α → Prop} {u : Unit}
    (hp : Accepts s.room p R) (hR : ∀ ts a, R ts a → ts ≠ []) (h : forget p s = .ok u s') :
    ∃ used, used ≠ [] ∧ s.Took used s' := by
  rcases forget_eq_ok_iff.mp h with ⟨a, ha⟩
  rcases (hp s a s' rfl).mp ha with ⟨used, htook, hused⟩
  exact ⟨used, hR used a hused, htook⟩

/-- A rule that succeeds takes at least one token, and none that ends the input. -/
theorem Call.exists_took {call : Call} (hrule : call.isRule = true) {s s' : State}
    (h : call.run s = .ok () s') : ∃ used, used ≠ [] ∧ s.Took used s' := by
  have hliteral : ∀ ts (l : Literal), DerivesLiteral ts l → ts ≠ [] := by
    intro ts l hl
    rcases derivesLiteral_singleton hl with ⟨t, rfl, -⟩
    simp
  have hentry : ∀ ts (e : Entry), (DerivesEntry ts e ∧ e.value.nesting ≤ s.room) → ts ≠ [] :=
    fun ts e he => ne_nil_of_head he.1.head
  cases call with
  | value => exact accepts_value.exists_took (fun ts v hv => derivesValue_ne_nil hv.1) h
  | literal => exact accepts_literal.exists_took hliteral h
  | literalValue =>
      refine accepts_literalValue.exists_took (fun ts v hv => ?_) h
      rcases hv with ⟨l, hl, -⟩
      exact hliteral ts l hl
  | list =>
      refine accepts_list.exists_took (fun ts v hv => ?_) h
      rcases hv with ⟨opening, us, ls, closing, rfl, -⟩
      simp
  | map => exact accepts_map.exists_took (fun ts v hv => derivesValue_ne_nil hv.1) h
  | entry => exact reads_entry.accepts.exists_took hentry h
  | entries =>
      -- Of several entries, the first one takes a token.
      rcases forget_eq_ok_iff.mp h with ⟨es, hes⟩
      rcases (separatedUpTo_eq_ok_iff reads_entry.accepts hentry _ s rfl le_rfl es s').mp hes with
        ⟨used, htook, hsep, -⟩
      exact ⟨used, ne_nil_of_head (hsep.head fun ts e he => he.1.head), htook⟩
  | attributes =>
      refine accepts_attributes.exists_took (fun ts es hes => ?_) h
      rcases hes with ⟨opening, us, closing, rfl, -⟩
      simp
  | tag =>
      refine accepts_tag.exists_took (fun ts t ht => ?_) h
      cases ht.1
      simp
  | current | advance | unexpected _ | expect _ | expectOr _ _ | enter | leave => cases hrule

/-- A token that is expected and not there is left where it is. -/
theorem expectOr_eq_error {kind : Token.Kind} {fault fault' : Fault} {s s' : State}
    (h : expectOr kind fault s = .error fault' s') : s' = s := by
  unfold expectOr at h
  split at h
  · cases h
  · cases h
    rfl

/-- Some calls that fail leave the state as it was. -/
theorem Call.eq_of_error {call : Call} (hwhole : call.isWhole = true) {s s' : State} {fault : Fault}
    (h : call.run s = .error fault s') : s' = s := by
  cases call with
  | expect kind => exact expectOr_eq_error (forget_eq_error_iff.mp h)
  | expectOr kind given =>
      cases given with
      | none => exact expectOr_eq_error (forget_eq_error_iff.mp h)
      | some given => exact expectOr_eq_error (forget_eq_error_iff.mp h)
  | literal => exact (literal_eq_error (forget_eq_error_iff.mp h)).2
  | enter =>
      have henter : Parser.enter s = .error fault s' := h
      unfold Parser.enter at henter
      split at henter
      · cases henter
        rfl
      · cases henter
  | current | advance | unexpected _ | leave | value | literalValue | list | map | entry | entries
  | attributes | tag => cases hwhole

/-- A state stands at a token of an input: its cursor is an index of the tokens, the
    tokens from there on are left, the last one ends the input, and no more maps are
    open than the limit allows. -/
structure State.Within (tokens : List Token) (label : String) (maxDepth : Nat) (s : State) :
    Prop where
  cursor_lt : s.cursor tokens < tokens.length
  current_eq : tokens[s.cursor tokens]? = some s.current
  remaining_eq : tokens.drop (s.cursor tokens) = s.remaining
  ends : ∃ stop, tokens.getLast? = some stop ∧ stop.kind = .endOfInput
  label_eq : s.label = label
  maxDepth_eq : s.maxDepth = maxDepth
  depth_le : s.depth ≤ maxDepth

/-- What is repeated from a state on comes to an end by itself. The elements of a list
    and entries are what their loops come to. A map is read as its own parts, of which
    none starts before the map has been counted, and then there is less room. -/
structure LoopsEnd (s : State) : Prop where
  elements : Loop element s (separated element s)
  entries : Loop entry s (entries s)
  map : map s = (do
    enter
    let _ ← expect .openCurly
    let es ← unlessAt .closeCurly Parser.entries
    let _ ← expect .closeCurly
    leave
    return .map es : Parser Value) s
  narrows : ∀ t, enter s = .ok () t → t.room < s.room

theorem loopsEnd (s : State) : LoopsEnd s where
  elements := loop_separated travels_element rfl
  entries := loop_separated travels_entry rfl
  map := map_eq s
  narrows := by
    intro t henter
    unfold enter at henter
    split at henter
    · cases henter
    · next hroom =>
        cases henter
        unfold State.room at hroom ⊢
        show s.maxDepth - (s.depth + 1) < s.maxDepth - s.depth
        omega

theorem State.ofTokens_label (tokens : List Token) (label : String) (maxDepth : Nat) :
    (ofTokens tokens label maxDepth).label = label := by
  unfold ofTokens
  split
  · rfl
  · split <;> rfl

/-- What is left after calls from the start of an input is a suffix of its tokens. -/
theorem State.Onward.suffix {tokens : List Token} {label : String} {maxDepth : Nat} {s : State}
    (h : (ofTokens tokens label maxDepth).Onward s) :
    s.remaining <:+ Token.completed label tokens := by
  rcases h.passed with ⟨used, hpassed⟩
  rw [← remaining_ofTokens tokens label maxDepth]
  exact hpassed.suffix List.suffix_rfl

/-- A state that calls lead to from the start of an input stands at one of its tokens. -/
theorem State.Onward.within {tokens : List Token} {label : String} {maxDepth : Nat} {s : State}
    (h : (ofTokens tokens label maxDepth).Onward s) :
    s.Within (Token.completed label tokens) label maxDepth := by
  have hsuffix := h.suffix
  have hlimit : s.maxDepth = maxDepth := h.maxDepth_eq.trans (ofTokens_maxDepth tokens label maxDepth)
  have hdepth : s.depth ≤ s.maxDepth := by
    refine h.depth_le ?_
    rw [ofTokens_depth]
    exact Nat.zero_le _
  constructor
  case cursor_lt => exact cursor_lt hsuffix
  case current_eq => exact getElem?_cursor hsuffix
  case remaining_eq => exact drop_cursor hsuffix
  case ends => exact ⟨s.stop, getLast?_eq_stop hsuffix, s.stop_kind⟩
  case label_eq => exact h.label_eq.trans (ofTokens_label tokens label maxDepth)
  case maxDepth_eq => exact hlimit
  case depth_le => exact hlimit ▸ hdepth

/-- Any sequence of calls leaves a parser at a token of its input, with no more maps
    open than allowed. The cursor never goes back. From there on, a rule that succeeds
    passes at least one token and none that ends the input, some calls that fail leave
    cursor and count as they were, and whatever is repeated ends by itself. -/
theorem State.within_afterCalls (tokens : List Token) (label : String) (maxDepth : Nat)
    (calls : List Call) :
    let whole := Token.completed label tokens
    let start := ofTokens tokens label maxDepth
    let s := start.afterCalls calls
    s.Within whole label maxDepth ∧
    (∀ earlier later, calls = earlier ++ later →
      (start.afterCalls earlier).cursor whole ≤ s.cursor whole) ∧
    (∀ (call : Call) (s' : State), call.isRule = true → call.run s = .ok () s' →
      s.cursor whole < s'.cursor whole ∧
      ∀ i t, s.cursor whole ≤ i → i < s'.cursor whole → whole[i]? = some t →
        t.kind ≠ .endOfInput) ∧
    (∀ (call : Call) (fault : Fault) (s' : State), call.isWhole = true →
      call.run s = .error fault s' →
      s'.cursor whole = s.cursor whole ∧ s'.depth = s.depth) ∧
    ∀ t : State, LoopsEnd t := by
  intro whole start s
  have hs : start.Onward s := start.onward_afterCalls calls
  have hsuffix : s.remaining <:+ whole := hs.suffix
  refine ⟨hs.within, ?_, ?_, ?_, loopsEnd⟩
  · intro earlier later hcalls
    have hlater : s = (start.afterCalls earlier).afterCalls later := by
      rw [← afterCalls_append, ← hcalls]
    have hearlier : (start.afterCalls earlier).remaining <:+ whole :=
      (start.onward_afterCalls earlier).suffix
    rcases ((start.afterCalls earlier).onward_afterCalls later).passed with ⟨used, hpassed⟩
    rw [hlater, hpassed.cursor_eq hearlier]
    omega
  · intro call s' hrule hrun
    rcases call.exists_took hrule hrun with ⟨used, hne, htook⟩
    have hpos := List.length_pos_iff.mpr hne
    rw [htook.passed.cursor_eq hsuffix]
    refine ⟨by omega, ?_⟩
    intro i t hle hlt ht
    -- The tokens between the cursors are those that were taken.
    have hmem : t ∈ used := by
      rw [show i = s.cursor whole + (i - s.cursor whole) by omega, ← List.getElem?_drop,
        drop_cursor hsuffix, htook.passed.remaining_eq,
        List.getElem?_append_left (by omega)] at ht
      exact List.mem_of_getElem? ht
    exact htook.inside t hmem
  · intro call fault s' hwhole hrun
    rw [call.eq_of_error hwhole hrun]
    exact ⟨rfl, rfl⟩

end Parser

end Annotations
