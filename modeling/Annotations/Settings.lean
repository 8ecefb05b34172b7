import Annotations.Number.Reading
import Annotations.Text.Blank

/-!
# Settings

How deeply maps may nest and how much is logged. Either may be set by an
environment variable; a variable that is set must be readable, even where
something else overrides it.

## Main definitions

* `Settings.LogLevel`: How much is logged.
* `Settings.Invalid`: Why a setting cannot be read.
* `Settings.Limits`: The limits of the parser.
* `Settings.Limits.ofVariable`, `Settings.LogLevel.ofVariable`: Settings from the
  environment.
-/

namespace Annotations

open Number Text

namespace Settings

/-- The variable that limits how deeply maps may nest. -/
def maxDepthVariable : String :=
  "DERIVE_ATTRS_MAX_DEPTH"

/-- The variable that says how much is logged. -/
def logLevelVariable : String :=
  "DERIVE_ATTRS_LOG_LEVEL"

/-- Why a setting cannot be read. -/
inductive Invalid where
  | unknownLogLevel (text : String)
  | invalidMaxDepth (text : String)
deriving DecidableEq, Repr

/-- The message on a setting that cannot be read. -/
def Invalid.message : Invalid → String
  | unknownLogLevel text =>
    s!"invalid configuration: unknown log level '{text}', " ++
      "expected one of: trace, debug, info, warn, error"
  | invalidMaxDepth text =>
    s!"invalid configuration: invalid max depth '{text}', expected a non-negative integer"

/-- How much is logged, from the most to the least. -/
inductive LogLevel where
  | trace
  | debug
  | info
  | warn
  | error
deriving DecidableEq, Repr

namespace LogLevel

/-- The name of a level. -/
def name : LogLevel → String
  | trace => "Trace"
  | debug => "Debug"
  | info => "Info"
  | warn => "Warn"
  | error => "Error"

/-- The word for a level. -/
def word : LogLevel → String
  | trace => "trace"
  | debug => "debug"
  | info => "info"
  | warn => "warn"
  | error => "error"

/-- Reads the word for a level in any case. Folding the case of ASCII letters is
    enough, as no other character folds into a letter of these words. -/
def ofWord (text : String) : Except Invalid LogLevel :=
  match String.ofList (text.toList.map Char.toLower) with
  | "trace" => .ok trace
  | "debug" => .ok debug
  | "info" => .ok info
  | "warn" | "warning" => .ok warn
  | "error" => .ok error
  | _ => .error (.unknownLogLevel text)

/-- The level that a variable asks for, warnings if it is not set. -/
def ofVariable : Option String → Except Invalid LogLevel
  | none => .ok warn
  | some text => ofWord text

end LogLevel

/-- The limits of the parser. -/
structure Limits where
  /-- How many maps may be open at once. -/
  maxDepth : Nat := 64
deriving DecidableEq, Repr

namespace Limits

/-- The limits that a variable asks for, the default ones if it is not set.
    White space around the number is ignored. -/
def ofVariable : Option String → Except Invalid Limits
  | none => .ok {}
  | some text =>
    match readNatural? (trim text.toList) with
    | some depth => .ok ⟨depth⟩
    | none => .error (.invalidMaxDepth text)

/-- Limits with another depth. -/
def withMaxDepth (limits : Limits) (depth : Nat) : Limits :=
  { limits with maxDepth := depth }

/-- Limits that a given depth takes precedence over. -/
def override (limits : Limits) : Option Nat → Limits
  | none => limits
  | some depth => limits.withMaxDepth depth

end Limits

end Settings

end Annotations
