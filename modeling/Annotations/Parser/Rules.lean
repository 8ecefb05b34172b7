import Annotations.Literal
import Annotations.Number.Reading
import Annotations.Parser.State

/-!
# Grammar Rules

One parser for each rule of the grammar, each deciding on the current token:

* a tag is `#[ identity attributes? ]`, with nothing between `#` and `[`;
* the attributes are one or more entries between parentheses;
* an entry is `name = value`;
* a value is a literal, a list or a map;
* a list is one or more literals between brackets, all of one family;
* a map is entries between braces, or none.

Only maps contain values again. The rule for maps is founded on the room for
further maps: without room it fails, and with room for one more its values may
contain maps in the room that is left. A map that was closed gives its room
back, so maps side by side do not add up.

## Main definitions

* `Parser.literal`, `Parser.list`, `Parser.map`, `Parser.value`: Values.
* `Parser.entry`, `Parser.entries`, `Parser.attributes`: Named values.
* `Parser.tag`: A tag.
* `Parser.wholeTag`: A tag with nothing after it.
-/

namespace Annotations

open Number Source

namespace Parser

/-- The scalar that the current token is. Lists and maps are refused with a cause
    of their own, since they cannot be list elements. -/
def State.literal (s : State) : Except Fault Literal :=
  let token := s.current
  let refuse (cause : Fault.Cause) : Except Fault Literal := .error ⟨cause, s.position⟩
  match token.kind with
  | .string => .ok (.string token.text)
  | .integer =>
    match readInteger? token.text.toList with
    | some n => .ok (.integer n)
    | none => refuse (.invalidNumber token.text)
  | .float =>
    match (readBinary64? token.text.toList).filter Binary64.isFinite with
    | some x => .ok (.float x)
    | none => refuse (.invalidNumber token.text)
  | .trueWord => .ok (.bool true)
  | .falseWord => .ok (.bool false)
  | .openBracket | .openCurly => refuse (.nestedCollection token.text)
  | _ => .error (s.unexpected "a literal")

/-- A scalar. -/
def literal : Parser Literal := do
  let l ← look State.literal
  let _ ← advance
  return l

/-- A scalar as a value. -/
def literalValue : Parser Value :=
  return (← literal).toValue

/-- A list element and where it starts. -/
def element : Parser (Literal × Position) := do
  let start ← position
  return (← literal, start)

/-- The value of a list whose elements have been read. -/
def foldElements (opening : Token) (elements : List (Literal × Position)) : Except Fault Value :=
  match Literal.fold (elements.map Prod.fst) with
  | .ok value => .ok value
  | .error (.mixed index expected received) =>
    .error ⟨.mixedList index expected.name received.name,
      (elements[index]?.map Prod.snd).getD opening.span.start⟩
  | .error .empty =>
    .error ⟨.unexpectedToken opening.text "expected a non-empty list", opening.span.start⟩

/-- One or more literals between brackets. Their families are compared once the
    closing bracket has been read. -/
def list : Parser Value := do
  let opening ← expect .openBracket
  let elements ← separated element
  let _ ← expect .closeBracket
  look fun _ => foldElements opening elements

/-- A value, where a rule for maps is given. -/
def valueWith (map : Parser Value) : Parser Value :=
  fun s => match s.kind with
    | .string | .integer | .float | .trueWord | .falseWord => literalValue s
    | .openBracket => list s
    | .openCurly => map s
    | _ => unexpected "a value" s

/-- A name and a value, where a rule for values is given. -/
def entryWith (value : Parser Value) : Parser Entry := do
  let name ← expect .identifier
  let _ ← expect .assignment
  return ⟨name.text, ← value⟩

/-- Entries between braces. The map is counted as open before its brace is read,
    and as closed after its closing brace. -/
def mapWithin : Nat → Parser Value
  | 0 => tooDeep
  | room + 1 => do
    countOpened
    let _ ← expect .openCurly
    let entries ← unlessAt .closeCurly (separated (entryWith (valueWith (mapWithin room))))
    let _ ← expect .closeCurly
    leave
    return .map entries

/-- A map, in the room that there is. -/
def map : Parser Value :=
  fun s => mapWithin s.room s

/-- A value. -/
def value : Parser Value :=
  valueWith map

/-- A name and a value. -/
def entry : Parser Entry :=
  entryWith value

/-- One or more entries; after a comma there has to be another one. -/
def entries : Parser (List Entry) :=
  separated entry

/-- One or more entries between parentheses. -/
def attributes : Parser (List Entry) := do
  let _ ← expect .openParen
  refuseIf (·.kind = .closeParen) (fun _ => .emptyAttributes)
  let attrs ← entries
  let _ ← expect .closeParen
  return attrs

/-- Fails if an opening bracket does not follow its hash sign at once. -/
def adjacent (hash opening : Token) : Parser Unit :=
  fun s =>
    if opening.span.start = hash.span.stop then .ok () s
    else .error ⟨.detachedHash, hash.span.stop⟩ s

/-- A tag. Nothing is said about what follows it. -/
def tag : Parser Tag := do
  let hash ← expect .hash
  let opening ← expect .openBracket
  adjacent hash opening
  let identity ← expect .identifier
  let attrs ← onlyAt .openParen attributes
  let _ ← expect .closeBracket
  return ⟨identity.text, attrs⟩

/-- A tag with nothing after it. -/
def wholeTag : Parser Tag := do
  let result ← tag
  refuseIf (·.kind ≠ .endOfInput) (fun s => .trailingInput s.current.text)
  return result

end Parser

end Annotations
