import Annotations.Parser.Rules
import Annotations.Token.Scan

/-!
# Reading Tags

From tokens to a tag, and from text to a tag. Scanning comes first and in full,
so a fault in the characters anywhere hides every fault in the order of tokens.

## Main definitions

* `Tag.ofTokens`: The tag that tokens make up.
* `Tag.ofSource`: The tag that a labelled text writes.
* `Tag.ofText`: The tag that a text without a name writes.
-/

namespace Annotations

namespace Tag

/-- The tag that tokens make up, with nothing after it. -/
def ofTokens (tokens : List Token) (label : String) (maxDepth : Nat) : Except Fault Tag :=
  match Parser.wholeTag (.ofTokens tokens label maxDepth) with
  | .ok t _ => .ok t
  | .error fault _ => .error fault

/-- The tag that a labelled text writes. -/
def ofSource (label : String) (maxDepth : Nat) (source : String) : Except Fault Tag := do
  ofTokens (← Token.scan label source) label maxDepth

/-- The tag that a text without a name writes. -/
def ofText (maxDepth : Nat) (source : String) : Except Fault Tag :=
  ofSource Source.defaultLabel maxDepth source

end Tag

end Annotations
