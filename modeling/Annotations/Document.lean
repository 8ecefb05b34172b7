/-!
# JSON Documents

Documents of the JSON data format, and their text without any spaces. Only what
the format demands is escaped: quotes, backslashes, and the control characters
below the space. A document is therefore written on a single line.

## Main definitions

* `Document`: A JSON value.
* `Document.spell`: The spelling of a character in a string.
* `Document.write`: The text of a document.
-/

namespace Annotations

mutual

/-- A JSON value. Numbers are kept as they are written. -/
inductive Document where
  | null
  | bool (b : Bool)
  | number (text : List Char)
  | string (s : String)
  | array (items : List Document)
  | object (members : List Document.Member)

/-- A named member of an object. -/
structure Document.Member where
  key : String
  value : Document

end

namespace Document

/-- Two hexadecimal digits of a number below 256. -/
def hexPair (n : Nat) : List Char :=
  [Nat.digitChar (n / 16), Nat.digitChar (n % 16)]

/-- The spelling of a character in a string. -/
def spell (c : Char) : List Char :=
  if c = '"' then ['\\', '"']
  else if c = '\\' then ['\\', '\\']
  else if c = '\x08' then ['\\', 'b']
  else if c = '\t' then ['\\', 't']
  else if c = '\n' then ['\\', 'n']
  else if c = '\x0c' then ['\\', 'f']
  else if c = '\r' then ['\\', 'r']
  else if c.toNat < 0x20 then ['\\', 'u', '0', '0'] ++ hexPair c.toNat
  else [c]

/-- A string between quotes. -/
def writeString (s : String) : List Char :=
  '"' :: s.toList.flatMap spell ++ ['"']

mutual

/-- The text of a document. -/
def write : Document → List Char
  | .null => ['n', 'u', 'l', 'l']
  | .bool true => ['t', 'r', 'u', 'e']
  | .bool false => ['f', 'a', 'l', 's', 'e']
  | .number text => text
  | .string s => writeString s
  | .array items => '[' :: [','].intercalate (writeEach items) ++ [']']
  | .object members => '{' :: [','].intercalate (writeMembers members) ++ ['}']
termination_by structural d => d

/-- The texts of documents. -/
def writeEach : List Document → List (List Char)
  | [] => []
  | d :: rest => d.write :: writeEach rest
termination_by structural ds => ds

/-- The texts of members. -/
def writeMembers : List Member → List (List Char)
  | [] => []
  | m :: rest => m.writeMember :: writeMembers rest
termination_by structural ms => ms

/-- The text of a member. -/
def Member.writeMember : Member → List Char
  | ⟨key, value⟩ => writeString key ++ ':' :: value.write
termination_by structural m => m

end

end Document

end Annotations
