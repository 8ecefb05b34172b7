import Annotations.Settings

/-!
# Command Line Arguments

One annotation may be given as an argument; options name a file, the output
format, the nesting limit and the log level. An option's value follows in the
next argument or, behind an equals sign, in the same one; the short option for
files also takes its value right behind its letter. Options may come after the
annotation, until an argument `--` ends them.

Arguments are taken from left to right, and the first that asks for the version
or cannot be understood settles the matter. It is a mistake to give an option
twice, or an annotation twice.

## Main definitions

* `Format`: The formats of output.
* `Arguments`: What a command line asks for.
* `Arguments.Refusal`: Why a command line asks for no run.
* `Arguments.parse`: The meaning of a command line.
-/

namespace Annotations

namespace CommandLine

open Settings

/-- The formats of output. -/
inductive Format where
  /-- The outline, spread over lines. -/
  | debug
  /-- The canonical text. -/
  | canonical
  /-- JSON. -/
  | json
deriving DecidableEq, Repr

/-- The format of a name. -/
def Format.ofName? : String → Option Format
  | "debug" => some .debug
  | "canonical" => some .canonical
  | "json" => some .json
  | _ => none

/-- What a command line asks for. -/
structure Arguments where
  operand : Option String := none
  file : Option String := none
  format : Option Format := none
  maxDepth : Option Nat := none
  logLevel : Option LogLevel := none
deriving DecidableEq, Repr

namespace Arguments

/-- Why a command line asks for no run. -/
inductive Refusal where
  /-- Only the version is wanted. -/
  | version
  /-- The command line is mistaken. -/
  | usage
deriving DecidableEq, Repr

/-- The options that take a value. -/
inductive Key where
  | file
  | format
  | maxDepth
  | logLevel
deriving DecidableEq, Repr

/-- The option of a long name. -/
def Key.ofName? : String → Option Key
  | "file" => some .file
  | "format" => some .format
  | "max-depth" => some .maxDepth
  | "log-level" => some .logLevel
  | _ => none

/-- Fills a place that may be filled once. -/
def once {α : Type} (place : Option α) (value : Option α) : Except Refusal (Option α) :=
  match place, value with
  | none, some a => .ok (some a)
  | _, _ => .error .usage

/-- The arguments with an option set, if its value can be read and it was not
    set before. -/
def set (a : Arguments) (key : Key) (value : String) : Except Refusal Arguments := do
  match key with
  | .file => return { a with file := ← once a.file (if value.isEmpty then none else some value) }
  | .format => return { a with format := ← once a.format (Format.ofName? value) }
  | .maxDepth => return { a with maxDepth := ← once a.maxDepth (Number.readNatural? value.toList) }
  | .logLevel => return { a with logLevel := ← once a.logLevel (LogLevel.ofWord value).toOption }

/-- The arguments with the annotation set, if it was not set before. -/
def setOperand (a : Arguments) (text : String) : Except Refusal Arguments :=
  return { a with operand := ← once a.operand (some text) }

/-- The forms that a single argument may have, before options are ended. -/
inductive Shape where
  /-- The mark that ends options. -/
  | endOfOptions
  /-- A request for the version. -/
  | version
  /-- An option with its value. -/
  | attached (key : Key) (value : String)
  /-- An option whose value is the next argument. -/
  | detached (key : Key)
  /-- No option. -/
  | plain
  /-- An option that does not exist, or that takes no value but has one. -/
  | unknown
deriving DecidableEq, Repr

/-- The form of an argument behind two dashes, split at its first equals sign. -/
def longShape (body : List Char) : Shape :=
  let name := String.ofList (body.takeWhile (· ≠ '='))
  match body.dropWhile (· ≠ '='), Key.ofName? name with
  | [], some key => .detached key
  | _ :: value, some key => .attached key (String.ofList value)
  | [], none => if name = "version" then .version else .unknown
  | _ :: _, none => .unknown

/-- The form of an argument. A single dash by itself is no option. -/
def shape (argument : String) : Shape :=
  match argument.toList with
  | ['-'] => .plain
  | ['-', '-'] => .endOfOptions
  | '-' :: '-' :: body => longShape body
  | '-' :: 'V' :: _ => .version
  | ['-', 'f'] => .detached .file
  | '-' :: 'f' :: '=' :: value => .attached .file (String.ofList value)
  | '-' :: 'f' :: value => .attached .file (String.ofList value)
  | '-' :: _ => .unknown
  | _ => .plain

/-- Takes arguments as annotations, options having ended. -/
def parsePlain (a : Arguments) : List String → Except Refusal Arguments
  | [] => .ok a
  | text :: rest => do parsePlain (← a.setOperand text) rest

/-- Takes arguments from left to right. -/
def parseFrom (a : Arguments) : List String → Except Refusal Arguments
  | [] => .ok a
  | argument :: rest =>
    match shape argument with
    | .endOfOptions => parsePlain a rest
    | .version => .error .version
    | .attached key value => do parseFrom (← a.set key value) rest
    | .detached key =>
      match rest with
      | [] => .error .usage
      | value :: rest =>
        if shape value = .plain then do parseFrom (← a.set key value) rest
        else .error .usage
    | .plain => do parseFrom (← a.setOperand argument) rest
    | .unknown => .error .usage

/-- The meaning of a command line. -/
def parse (arguments : List String) : Except Refusal Arguments :=
  parseFrom {} arguments

end Arguments

end CommandLine

end Annotations
