import Annotations.Source.Position

/-!
# Tokens

The units that an annotation is made of. A token has a kind, the text it
carries and the span it was read from. The text of a string token is what
stands between its quotes, while its span covers the quotes as well.

## Main definitions

* `Token.Kind`: The sixteen kinds of token.
* `Token.Kind.name`, `Token.Kind.describe`: A kind's name, and how it reads
  where a token of that kind was expected.
* `Token`: A kind with its text and span.
* `Token.endOfInput`: The token that stands after the last one.
* `Token.display`, `Token.summary`: Two texts that show a token.
-/

namespace Annotations

/-- The kinds of token. -/
inductive Token.Kind where
  | endOfInput
  | integer
  | float
  | string
  | identifier
  | hash
  | openBracket
  | closeBracket
  | openCurly
  | closeCurly
  | openParen
  | closeParen
  | assignment
  | comma
  | trueWord
  | falseWord
deriving DecidableEq, Repr

namespace Token.Kind

/-- The name of a kind. -/
def name : Kind → String
  | endOfInput => "EOF"
  | integer => "Integer"
  | float => "Float"
  | string => "String"
  | identifier => "Identifier"
  | hash => "Hash"
  | openBracket => "OpenBracket"
  | closeBracket => "CloseBracket"
  | openCurly => "OpenCurly"
  | closeCurly => "CloseCurly"
  | openParen => "OpenParen"
  | closeParen => "CloseParen"
  | assignment => "Assignment"
  | comma => "Comma"
  | trueWord => "True"
  | falseWord => "False"

/-- How a kind reads after the word "expected". -/
def describe : Kind → String
  | endOfInput => "end of input"
  | integer => "an integer"
  | float => "a float"
  | string => "a string"
  | identifier => "an identifier"
  | hash => "`#`"
  | openBracket => "`[`"
  | closeBracket => "`]`"
  | openCurly => "`\x7b`"
  | closeCurly => "`\x7d`"
  | openParen => "`(`"
  | closeParen => "`)`"
  | assignment => "`=`"
  | comma => "`,`"
  | trueWord => "a boolean"
  | falseWord => "a boolean"

/-- Kinds whose text is not settled by the kind alone. -/
def hasPayload : Kind → Bool
  | string | identifier | integer | float => true
  | _ => false

end Token.Kind

/-- A token: its kind, the text it carries and where it was read. -/
structure Token where
  kind : Token.Kind
  text : String
  span : Source.Span
deriving DecidableEq, Repr

namespace Token

/-- The token that stands after the last one, with an empty span. -/
def endOfInput (position : Source.Position) : Token where
  kind := .endOfInput
  text := "EOF"
  span := ⟨position, position⟩

/-- The kind and the text on lines of their own. -/
def display (t : Token) : String :=
  "Token \x7b\nkind: " ++ t.kind.name ++ ",\nvalue: " ++ t.text ++ "\x7d"

/-- The kind, with the text where the kind does not settle it. -/
def summary (t : Token) : String :=
  t.kind.name ++ " (" ++ (if t.kind.hasPayload then t.text else "") ++ ")"

end Token

end Annotations
