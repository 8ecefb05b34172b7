import Annotations.Outline
import Annotations.Source.Position

/-!
# Faults

What can be wrong with an annotation, and where. A cause carries what its
wording needs and nothing else; the position of a fault is kept beside it, so
that one cause at two places is the same cause.

All the texts about a cause are functions of it: its name, a tip for whoever
wrote the annotation, a message for a log, and its outline.

## Main definitions

* `Fault.Cause`: What is wrong.
* `Fault`: A cause and its position.
* `Fault.Cause.category`: The stage at which a cause arises.
* `Fault.Cause.name`, `Fault.Cause.tip?`, `Fault.Cause.message`: Its texts.
* `Fault.message`: The message with its position.
* `Fault.outline`: The structural view.
-/

namespace Annotations

open Source

/-- What is wrong with an annotation. -/
inductive Fault.Cause where
  /-- A character that starts no token. -/
  | unrecognised (token : String)
  /-- A string literal without closing quote. -/
  | unterminatedString
  /-- A token that cannot stand at its place. -/
  | unexpectedToken (token note : String)
  /-- The input ends where something was still expected. -/
  | unexpectedEnd (expected : String)
  /-- A token after the end of the annotation. -/
  | trailingInput (token : String)
  /-- Parentheses with nothing between them. -/
  | emptyAttributes
  /-- A hash sign that the opening bracket does not follow at once. -/
  | detachedHash
  /-- More maps inside one another than allowed. -/
  | nestingTooDeep (limit : Nat)
  /-- A list element of another family than the first one. -/
  | mixedList (index : Nat) (expected received : String)
  /-- A list or a map as a list element. -/
  | nestedCollection (token : String)
  /-- A number that its type cannot hold. -/
  | invalidNumber (token : String)
deriving DecidableEq, Repr

/-- Something wrong with an annotation, and where. -/
structure Fault where
  cause : Fault.Cause
  position : Position
deriving DecidableEq, Repr

namespace Fault

/-- The stages at which causes arise. -/
inductive Category where
  /-- A character could not start any token. -/
  | lexical
  /-- The tokens do not follow the grammar. -/
  | grammatical
  /-- A list has elements that cannot share it. -/
  | typing
  /-- A number does not fit its type. -/
  | numericRange
deriving DecidableEq, Repr

namespace Cause

/-- The stage at which a cause arises. -/
def category : Cause → Category
  | unrecognised _ | unterminatedString => .lexical
  | unexpectedToken _ _ | unexpectedEnd _ | trailingInput _ | emptyAttributes | detachedHash
  | nestingTooDeep _ => .grammatical
  | mixedList _ _ _ | nestedCollection _ => .typing
  | invalidNumber _ => .numericRange

/-- The name of a cause, the same whatever the cause carries. -/
def name : Cause → String
  | unrecognised _ => "UnrecognisedToken"
  | unterminatedString => "UnterminatedString"
  | unexpectedToken _ _ => "UnexpectedTokenDetailed"
  | unexpectedEnd _ => "UnexpectedEndOfInput"
  | trailingInput _ => "TrailingInput"
  | emptyAttributes => "EmptyAttributeList"
  | detachedHash => "DetachedHash"
  | nestingTooDeep _ => "NestingTooDeep"
  | mixedList _ _ _ => "MixedList"
  | nestedCollection _ => "NestedCollection"
  | invalidNumber _ => "NumberParseError"

/-- Advice for whoever wrote the annotation. There is none on a character that
    starts no token. -/
def tip? : Cause → Option String
  | unrecognised _ => none
  | unterminatedString => some "String literal is missing its closing `\"`"
  | unexpectedToken token note => some s!"Unexpected token: `{token}`, {note}"
  | unexpectedEnd expected => some s!"Input ended early, expected {expected}"
  | trailingInput token =>
    some s!"Unexpected `{token}` after the closing `]`, only one annotation is allowed"
  | emptyAttributes => some "Attribute list is empty, remove the parentheses instead"
  | detachedHash => some "`#` must be directly followed by `[`"
  | nestingTooDeep limit => some s!"Maps are nested more than {limit} levels deep"
  | mixedList index expected received =>
    some s!"List element {index} is {received}, but the list holds {expected} values"
  | nestedCollection token =>
    some s!"`{token}` starts a nested collection, list elements must be literals"
  | invalidNumber token => some s!"Invalid number: `{token}`, is it above the integer limit?"

/-- The message of a cause, in which tokens are quoted visibly. -/
def message : Cause → String
  | unrecognised token => "unrecognised token: " ++ Text.quoted token
  | unterminatedString => "unterminated string literal"
  | unexpectedToken token note => s!"unexpected token ({note}): " ++ Text.quoted token
  | unexpectedEnd expected => s!"unexpected end of input, expected {expected}"
  | trailingInput token => "trailing input after annotation: " ++ Text.quoted token
  | emptyAttributes => "attribute list must not be empty"
  | detachedHash => "whitespace between `#` and `[`"
  | nestingTooDeep limit => s!"maps nested deeper than {limit} levels"
  | mixedList index expected received =>
    s!"list element {index} is {received}, expected {expected}"
  | nestedCollection token => "nested collection in list: " ++ Text.quoted token
  | invalidNumber token => "error parsing number: " ++ Text.quoted token

/-- What a cause carries, as named fields. -/
def fields : Cause → List Outline.Field
  | unrecognised token | trailingInput token | nestedCollection token | invalidNumber token =>
    [⟨"token".toList, .quoted token⟩]
  | unexpectedToken token note =>
    [⟨"token".toList, .quoted token⟩, ⟨"message".toList, .quoted note⟩]
  | unexpectedEnd expected => [⟨"expected".toList, .quoted expected⟩]
  | nestingTooDeep limit => [⟨"limit".toList, .natural limit⟩]
  | mixedList index expected received =>
    [⟨"index".toList, .natural index⟩, ⟨"expected".toList, .quoted expected⟩,
      ⟨"received".toList, .quoted received⟩]
  | unterminatedString | emptyAttributes | detachedHash => []

/-- The structural view of a cause; one that carries nothing is its name. -/
def outline (c : Cause) : Outline :=
  match c.fields with
  | [] => .atom c.name.toList
  | fields => .record c.name.toList fields

end Cause

/-- The message of the cause and the position it is about. -/
def message (f : Fault) : String :=
  s!"{f.cause.message} at byte {f.position.offset} of {f.position.label}"

/-- The structural view of a fault. -/
def outline (f : Fault) : Outline :=
  .record "Error".toList
    [⟨"internal_error".toList, f.cause.outline⟩,
      ⟨"position".toList, .variant "Position".toList
        [.natural f.position.offset.toNat, .quoted f.position.label]⟩]

end Fault

end Annotations
