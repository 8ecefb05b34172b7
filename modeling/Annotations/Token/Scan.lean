import Annotations.Fault
import Annotations.Text.Blank
import Annotations.Text.Bytes
import Annotations.Text.Letter
import Annotations.Text.Numeral
import Annotations.Token.Basic

/-!
# Scanning

A source is cut into lexemes from its start. The first character of what is
left decides the class of the next lexeme, and the lexeme is the longest text of
that class:

* a word is a letter or underscore followed by letters, numerals and
  underscores; two words are reserved, the others are identifiers;
* a number is ASCII digits, and a point with further digits or none makes it a
  float;
* a string runs from a double quote to the next one, and nothing in between is
  special;
* white space is skipped;
* each of `# [ ] { } ( ) = ,` is a lexeme of its own.

No character starts lexemes of two classes, so the order in which the classes
are tried does not matter.

## Main definitions

* `Lexeme`: A piece of the source that starts with a known character.
* `Lexeme.read`: The lexeme that starts with a character.
* `Token.scanFrom`, `Token.scan`: The tokens of a source.
-/

namespace Annotations

open Source Text

/-- A character that a word may start with. -/
def isWordStart (c : Char) : Bool :=
  isLetter c || c == '_'

/-- A character that a word may go on with. -/
def isWordPart (c : Char) : Bool :=
  isLetter c || isNumeral c || c == '_'

/-- The kind of a word: reserved, or an identifier. -/
def wordKind (word : List Char) : Token.Kind :=
  if word = ['t', 'r', 'u', 'e'] then .trueWord
  else if word = ['f', 'a', 'l', 's', 'e'] then .falseWord
  else .identifier

/-- The kind of a punctuation mark. -/
def punctuation? : Char → Option Token.Kind
  | '#' => some .hash
  | '[' => some .openBracket
  | ']' => some .closeBracket
  | '{' => some .openCurly
  | '}' => some .closeCurly
  | '(' => some .openParen
  | ')' => some .closeParen
  | '=' => some .assignment
  | ',' => some .comma
  | _ => none

/-- A piece of the source that starts with a known character. -/
structure Lexeme where
  /-- The kind of token it makes, `none` for white space. -/
  kind : Option Token.Kind
  /-- The text of the token. -/
  text : List Char
  /-- The characters of the source that belong to it, after the first one. -/
  tail : List Char
deriving DecidableEq, Repr

namespace Lexeme

/-- A lexeme whose text is all of its characters. -/
def verbatim (kind : Option Token.Kind) (c : Char) (tail : List Char) : Lexeme :=
  ⟨kind, c :: tail, tail⟩

/-- The characters of a number after its first digit, and whether they include
    a decimal point. -/
def numberTail (cs : List Char) : Token.Kind × List Char :=
  let whole := cs.takeWhile Char.isDigit
  match cs.dropWhile Char.isDigit with
  | '.' :: more => (.float, whole ++ '.' :: more.takeWhile Char.isDigit)
  | _ => (.integer, whole)

/-- The lexeme that starts with `c` in a source that goes on with `cs`. -/
def read (c : Char) (cs : List Char) : Except Fault.Cause Lexeme :=
  if isWordStart c then
    let tail := cs.takeWhile isWordPart
    .ok (.verbatim (wordKind (c :: tail)) c tail)
  else if c.isDigit then
    let (kind, tail) := numberTail cs
    .ok (.verbatim kind c tail)
  else if isBlank c then
    .ok (.verbatim none c (cs.takeWhile isBlank))
  else if c = '"' then
    let body := cs.takeWhile (· ≠ '"')
    if cs.contains '"' then .ok ⟨some .string, body, body ++ ['"']⟩
    else .error .unterminatedString
  else match punctuation? c with
    | some kind => .ok (.verbatim kind c [])
    | none => .error (.unrecognised (String.singleton c))

end Lexeme

namespace Token

/-- The tokens of the rest of a source that starts at an offset. -/
def scanFrom (label : String) (offset : Nat) : List Char → Except Fault (List Token)
  | [] => .ok [endOfInput (.ofOffset label offset)]
  | c :: cs =>
    match Lexeme.read c cs with
    | .error cause => .error ⟨cause, .ofOffset label offset⟩
    | .ok lexeme =>
      let length := byteLength (c :: lexeme.tail)
      match scanFrom label (offset + length) (cs.drop lexeme.tail.length) with
      | .error fault => .error fault
      | .ok tokens =>
        match lexeme.kind with
        | none => .ok tokens
        | some kind =>
          .ok (⟨kind, String.ofList lexeme.text, .ofLength label offset length⟩ :: tokens)
termination_by cs => cs.length
decreasing_by
  simp only [List.length_drop, List.length_cons]
  omega

/-- The tokens of a source, the last of which stands for its end. -/
def scan (label : String) (source : String) : Except Fault (List Token) :=
  scanFrom label 0 source.toList

end Token

end Annotations
