import Annotations.Proofs.Parser.CorrectPrefix

/-!
# Where a Parser Stands

A state holds the tokens that are left and none of those before. Seen against all
the tokens of its input, it stands at one of them: the tokens left, with the one
that ends the input, are a suffix of all, and the cursor is where that suffix
starts. Since there is always a token left, the cursor is an index.

## Main definitions

* `Parser.finalState`: The state that a parser leaves, whether it succeeds or fails.
* `Parser.State.remaining`: The tokens left, with the one that ends the input.
* `Parser.State.cursor`: The index of the current token.

## Theorems

* `Parser.State.cursor_lt`, `Parser.State.getElem?_cursor`: The cursor is the index of
  the current token.
* `Parser.State.remaining_ofTokens`: At the start all tokens are left.
* `Parser.State.Passed.cursor_eq`: The cursor moves by the tokens that are passed.
-/

namespace Annotations

namespace Parser

/-- The state that a parser leaves, whether it succeeds or fails. -/
def finalState {α : Type} : EStateM.Result Fault State α → State
  | .ok _ s => s
  | .error _ s => s

namespace State

/-- The tokens left, with the one that ends the input. -/
def remaining (s : State) : List Token :=
  s.rest ++ [s.stop]

/-- The index of the current token among all tokens of the input. -/
def cursor (tokens : List Token) (s : State) : Nat :=
  tokens.length - s.remaining.length

theorem length_remaining (s : State) : s.remaining.length = s.rest.length + 1 := by
  simp [remaining]

theorem exists_remaining_eq (s : State) : ∃ after, s.remaining = s.current :: after :=
  s.exists_eq_current_cons

variable {s s' : State} {tokens used : List Token}

/-- The cursor is an index of the tokens. -/
theorem cursor_lt (h : s.remaining <:+ tokens) : s.cursor tokens < tokens.length := by
  have hle := h.length_le
  rw [length_remaining] at hle
  unfold cursor
  rw [length_remaining]
  omega

/-- The tokens from the cursor on are those that are left. -/
theorem drop_cursor (h : s.remaining <:+ tokens) : tokens.drop (s.cursor tokens) = s.remaining :=
  (List.suffix_iff_eq_drop.mp h).symm

/-- The token at the cursor is the current one. -/
theorem getElem?_cursor (h : s.remaining <:+ tokens) :
    tokens[s.cursor tokens]? = some s.current := by
  rcases s.exists_remaining_eq with ⟨after, hafter⟩
  have hhead : (tokens.drop (s.cursor tokens))[0]? = some s.current := by
    rw [drop_cursor h, hafter]
    rfl
  rw [List.getElem?_drop, Nat.add_zero] at hhead
  exact hhead

/-- The last of the tokens is the one that ends the input. -/
theorem getLast?_eq_stop (h : s.remaining <:+ tokens) : tokens.getLast? = some s.stop := by
  rcases h with ⟨before, rfl⟩
  simp [remaining]

/-- At the start all tokens are left, and the one that ends the input is among them. -/
theorem remaining_ofTokens (tokens : List Token) (label : String) (maxDepth : Nat) :
    (ofTokens tokens label maxDepth).remaining = Token.completed label tokens :=
  ofTokens_eq_completed tokens label maxDepth

theorem Passed.remaining_eq (h : s.Passed used s') : s.remaining = used ++ s'.remaining := by
  unfold remaining
  rw [h.rest_eq, h.stop_eq, List.append_assoc]

theorem Passed.suffix (h : s.Passed used s') (hs : s.remaining <:+ tokens) :
    s'.remaining <:+ tokens :=
  (List.suffix_append used s'.remaining).trans (h.remaining_eq ▸ hs)

/-- The cursor moves by the tokens that are passed. -/
theorem Passed.cursor_eq (h : s.Passed used s') (hs : s.remaining <:+ tokens) :
    s'.cursor tokens = s.cursor tokens + used.length := by
  have hle := hs.length_le
  unfold cursor
  rw [h.remaining_eq, List.length_append] at hle ⊢
  omega

end State

end Parser

end Annotations
