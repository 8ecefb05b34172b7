import Annotations.Text.Invisible

/-!
# Quoted Text

Text between double quotes in which every character can be seen. Quotes and
backslashes are escaped, the common control characters have short names, and
the other characters without a glyph are spelled by their number.

## Main definitions

* `spellVisibly`: The spelling of one character.
* `quoted`: Text between double quotes.
-/

namespace Annotations

namespace Text

/-- The spelling of a character in quoted text. It does not depend on the
    characters around it. -/
def spellVisibly (c : Char) : List Char :=
  if c = '"' then ['\\', '"']
  else if c = '\\' then ['\\', '\\']
  else if c = '\x00' then ['\\', '0']
  else if c = '\t' then ['\\', 't']
  else if c = '\n' then ['\\', 'n']
  else if c = '\r' then ['\\', 'r']
  else if isInvisible c then ['\\', 'u', '{'] ++ Nat.toDigits 16 c.toNat ++ ['}']
  else [c]

/-- Text between double quotes, each character spelled visibly. -/
def quoted (text : String) : String :=
  String.ofList ('"' :: text.toList.flatMap spellVisibly ++ ['"'])

end Text

end Annotations
