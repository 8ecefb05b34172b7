import Annotations.Fault
import Annotations.Token.Basic

/-!
# Parser State

A parser works on the tokens that are left. Behind them stands one token that
ends the input, and moving on from there goes nowhere; so there is a current
token in every state, and no state is out of bounds.

A parser also counts the maps that are open, and may not open more than
`maxDepth`. What is left of that allowance is the `room`, on which the
recursion into nested maps is founded.

A failing parser keeps the state that it failed in. The same state can then be
used on: nothing is taken back, neither tokens nor open maps.

## Main definitions

* `Parser.State`: The tokens left and the maps that are open.
* `Parser.State.ofTokens`: The state at the start of a list of tokens.
* `Parser`: A computation on states that may fail with a fault.
* `Parser.current`, `Parser.advance`: The current token, and moving past it.
* `Parser.expect`: Moving past a token of a given kind.
* `Parser.enter`, `Parser.leave`: Opening and closing a map.
* `Parser.unlessAt`, `Parser.onlyAt`: What is read depending on the current token.
* `Parser.separated`: One or more of something with commas in between.

## Theorems

* `Parser.State.rest_ne_nil`: Only the end of the input has no token left.
* `Parser.bind_ok`, `Parser.bind_error`: What a sequence of parsers does after its
  first one.
-/

namespace Annotations

open Source

/-- What a parser has in front of it, and how many maps are open. -/
structure Parser.State where
  /-- The tokens left, without the one that ends the input. -/
  rest : List Token
  /-- The token that ends the input. -/
  stop : Token
  stop_kind : stop.kind = .endOfInput
  /-- The label of the input. -/
  label : String
  /-- How many maps are open. -/
  depth : Nat
  /-- How many maps may be open at once. -/
  maxDepth : Nat

namespace Parser.State

/-- The state at the start of a list of tokens. If the list does not end its
    input itself, the input ends where its last token does. -/
def ofTokens (tokens : List Token) (label : String) (maxDepth : Nat) : State :=
  match tokens.getLast? with
  | none => ⟨[], .endOfInput (.ofOffset label 0), rfl, label, 0, maxDepth⟩
  | some last =>
    if h : last.kind = .endOfInput then ⟨tokens.dropLast, last, h, label, 0, maxDepth⟩
    else ⟨tokens, .endOfInput last.span.stop, rfl, label, 0, maxDepth⟩

/-- The current token. -/
def current (s : State) : Token :=
  s.rest.headD s.stop

/-- The kind of the current token. -/
def kind (s : State) : Token.Kind :=
  s.current.kind

/-- Where the current token starts. -/
def position (s : State) : Position :=
  s.current.span.start

/-- A token that does not end the input is one of those left. -/
theorem rest_ne_nil {s : State} (h : s.kind ≠ .endOfInput) : s.rest ≠ [] := by
  intro hrest
  apply h
  rw [kind, current, hrest]
  exact s.stop_kind

/-- The state after the current token, which stays the same at the end. -/
def next (s : State) : State :=
  { s with rest := s.rest.tail }

/-- How many more maps may be opened. -/
def room (s : State) : Nat :=
  s.maxDepth - s.depth

/-- The fault of the current token where something else was expected. -/
def unexpected (s : State) (expected : String) : Fault where
  cause :=
    if s.kind = .endOfInput then .unexpectedEnd expected
    else .unexpectedToken s.current.text ("expected " ++ expected)
  position := s.position

end Parser.State

/-- A computation on parser states that gives a result or a fault, and a state
    in either case. -/
abbrev Parser :=
  EStateM Fault Parser.State

namespace Parser

variable {α β : Type}

/-- After a first parser that succeeds, a sequence goes on with what follows. -/
theorem bind_ok {p : Parser α} {f : α → Parser β} {s t : State} {a : α} (h : p s = .ok a t) :
    (p >>= f) s = f a t := by
  show EStateM.bind p f s = f a t
  rw [EStateM.bind, h]

/-- After a first parser that fails, a sequence fails in the same state. -/
theorem bind_error {p : Parser α} {f : α → Parser β} {s t : State} {fault : Fault}
    (h : p s = .error fault t) : (p >>= f) s = .error fault t := by
  show EStateM.bind p f s = .error fault t
  rw [EStateM.bind, h]

/-- What can be told from the state, which stays as it is. -/
def look (view : State → Except Fault α) : Parser α :=
  fun s => match view s with
    | .ok a => .ok a s
    | .error fault => .error fault s

/-- The kind of the current token. -/
def kind : Parser Token.Kind :=
  fun s => .ok s.kind s

/-- The current token. -/
def current : Parser Token :=
  fun s => .ok s.current s

/-- Where the current token starts. -/
def position : Parser Position :=
  fun s => .ok s.position s

/-- Moves past the current token, which is the result. -/
def advance : Parser Token :=
  fun s => .ok s.current s.next

/-- Fails because something else than the current token was expected. -/
def unexpected (expected : String) : Parser α :=
  fun s => .error (s.unexpected expected) s

/-- Fails with a cause if a condition holds of the state, at its current token. -/
def refuseIf (condition : State → Bool) (cause : State → Fault.Cause) : Parser Unit :=
  fun s => if condition s then .error ⟨cause s, s.position⟩ s else .ok () s

/-- Moves past a token of the kind, or fails with the given fault. -/
def expectOr (expected : Token.Kind) (fault : Fault) : Parser Token :=
  fun s => if s.kind = expected then advance s else .error fault s

/-- Moves past a token of the kind, which is the result. -/
def expect (expected : Token.Kind) : Parser Token :=
  fun s => expectOr expected (s.unexpected expected.describe) s

/-- Fails because no further map may be opened. -/
def tooDeep : Parser α :=
  fun s => .error ⟨.nestingTooDeep s.maxDepth, s.position⟩ s

/-- Counts one more open map. -/
def countOpened : Parser Unit :=
  fun s => .ok () { s with depth := s.depth + 1 }

/-- Opens a map, if there is room for it. -/
def enter : Parser Unit :=
  fun s => if s.room = 0 then tooDeep s else countOpened s

/-- Closes a map, if one is open. -/
def leave : Parser Unit :=
  fun s => .ok () { s with depth := s.depth - 1 }

/-- None at a token of the kind, and what the parser finds at any other. -/
def unlessAt (closing : Token.Kind) (items : Parser (List α)) : Parser (List α) :=
  fun s => if s.kind = closing then .ok [] s else items s

/-- None unless at a token of the kind, and there what the parser finds. -/
def onlyAt (opening : Token.Kind) (items : Parser (List α)) : Parser (List α) :=
  fun s => if s.kind = opening then items s else .ok [] s

/-- One or more of something with commas in between, up to `n + 1` of them. -/
def separatedUpTo (item : Parser α) : Nat → Parser (List α)
  | 0 => return [← item]
  | n + 1 => do
    let first ← item
    let rest ← onlyAt .comma do
      let _ ← advance
      separatedUpTo item n
    return first :: rest

/-- One or more of something with commas in between. There cannot be more commas
    than tokens left, so the bound is never what ends the list. -/
def separated (item : Parser α) : Parser (List α) :=
  fun s => separatedUpTo item s.rest.length s

end Parser

end Annotations
