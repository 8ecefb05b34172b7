import Annotations.CommandLine.Arguments
import Annotations.Diagnostic
import Annotations.Tag.Document
import Annotations.Tag.Outline
import Annotations.Tag.Reading

/-!
# Runs of the Command

A run reads one annotation per line, prints the tag of each line that can be
read, and a diagnostic for each that cannot. Lines stand alone: each is scanned
and parsed by itself, and its diagnostic knows only of that line. Blank lines are
passed over. A run breaks down on a line whose diagnostic cannot be had: it ends
there, and the lines behind are not read.

What a run does is decided here, and the outcome is a value: the text for either
stream and the exit code. Two things that end up in the error stream are not
part of it, the lines of a log, which a run writes at level `info` and below, and
what the runtime reports of a breakdown. A `Job` is what is known before the
input is fetched, so that whoever has access to files and streams has only to
fetch it.

## Main definitions

* `Outcome`: The exit code and what is written to both streams.
* `Outcome.breakdown`: A run that breaks down.
* `Environment`: The variables that a run depends on.
* `Input`: Where the input comes from.
* `Job`: What is to be done with the input.
* `Job.prepare`: The job that a command line asks for.
* `Job.process`, `Job.finish`: The outcome of a job on its input.
* `run`: The outcome of a command line, where all inputs are at hand.
-/

namespace Annotations

namespace CommandLine

open Settings Text

/-- The exit code of a run, and what it writes to both streams, a log apart. -/
structure Outcome where
  exitCode : UInt8 := 0
  stdout : String := ""
  stderr : String := ""
deriving DecidableEq, Repr

/-- A run that fails with one line on the error stream. -/
def Outcome.failure (message : String) : Outcome :=
  { exitCode := 1, stderr := message ++ "\n" }

/-- A run that breaks down. What the runtime reports of it is left out. -/
def Outcome.breakdown : Outcome :=
  { exitCode := 101 }

/-- The run has broken down. -/
def Outcome.brokeDown (a : Outcome) : Bool :=
  a.exitCode = 101

/-- A run that fails with a diagnostic, or breaks down where there is none. -/
def Outcome.refusal : Option String → Outcome
  | some diagnostic => .failure diagnostic
  | none => .breakdown

/-- One outcome after another, which fails if either does. Nothing comes after a
    breakdown. -/
def Outcome.append (a b : Outcome) : Outcome :=
  if a.brokeDown then a
  else
    { exitCode := max a.exitCode b.exitCode
      stdout := a.stdout ++ b.stdout
      stderr := a.stderr ++ b.stderr }

/-- The variables that a run depends on. -/
structure Environment where
  maxDepth : Option String := none
  logLevel : Option String := none
deriving DecidableEq, Repr

/-- Where the input comes from. -/
inductive Input where
  /-- An argument of the command line. -/
  | argument (text : String)
  /-- A file. -/
  | file (path : String)
  /-- The standard input. -/
  | stdin
deriving DecidableEq, Repr

/-- The label that diagnostics give an input. -/
def Input.label : Input → String
  | argument _ => Source.defaultLabel
  | file path => path
  | stdin => "<stdin>"

/-- Why an input cannot be had. -/
inductive ReadFault where
  | missing
  | directory
  | invalidText
  | other (message : String)
deriving DecidableEq, Repr

/-- The message on an input that cannot be had. -/
def ReadFault.message : ReadFault → String
  | missing => "No such file or directory (os error 2)"
  | directory => "Is a directory (os error 21)"
  | invalidText => "stream did not contain valid UTF-8"
  | other message => message

/-- The text of bytes that were read. -/
def textOfBytes (bytes : ByteArray) : Except ReadFault String :=
  match String.fromUTF8? bytes with
  | some text => .ok text
  | none => .error .invalidText

/-- What is to be done with the input. -/
structure Job where
  input : Input
  format : Format
  limits : Limits
  logLevel : LogLevel
deriving DecidableEq, Repr

/-- The text of a tag in a format. -/
def Format.render : Format → Tag → String
  | .debug, t => t.spreadOutline
  | .canonical, t => t.text
  | .json, t => t.json

namespace Job

/-- What is written on one line of the input. -/
def processLine (job : Job) (line : List Char) : Outcome :=
  let source := String.ofList line
  match Tag.ofSource job.input.label job.limits.maxDepth source with
  | .ok t => { stdout := job.format.render t ++ "\n" }
  | .error fault => .refusal (fault.render? source)

/-- What is written on all lines of the input that are not blank. -/
def process (job : Job) (contents : String) : Outcome :=
  (((lineContents contents.toList).filter (fun line => !(trim line).isEmpty)).map
    job.processLine).foldr .append {}

/-- The outcome of a job once its input was fetched. -/
def finish (job : Job) : Except ReadFault String → Outcome
  | .ok contents => job.process contents
  | .error fault => .failure ("Failed to read input: " ++ fault.message)

/-- The input that arguments ask for: an annotation before a file, and a file
    before the standard input. -/
def inputOf (arguments : Arguments) : Input :=
  match arguments.operand, arguments.file with
  | some text, _ => .argument text
  | none, some path => .file path
  | none, none => .stdin

/-- The settings of a job. Both variables have to be readable even where an
    option takes precedence; the log level is looked at first. -/
def ofArguments (arguments : Arguments) (environment : Environment) : Except Invalid Job := do
  let level ← LogLevel.ofVariable environment.logLevel
  let limits ← Limits.ofVariable environment.maxDepth
  return {
    input := inputOf arguments
    format := arguments.format.getD .debug
    limits := limits.override arguments.maxDepth
    logLevel := arguments.logLevel.getD level }

/-- The job that a command line asks for, or the outcome if there is none. -/
def prepare (arguments : List String) (environment : Environment) : Except Outcome Job :=
  match Arguments.parse arguments with
  | .error .version => .error { stdout := "derive-attrs 0.1.0\n" }
  | .error .usage => .error { exitCode := 2 }
  | .ok arguments =>
    match ofArguments arguments environment with
    | .error invalid => .error (.failure invalid.message)
    | .ok job => .ok job

end Job

/-- What there is to read: files by path, and the standard input. -/
structure Surroundings where
  file : String → Except ReadFault ByteArray
  stdin : ByteArray

/-- The text of an input. -/
def Surroundings.fetch (s : Surroundings) : Input → Except ReadFault String
  | .argument text => .ok text
  | .file path => do textOfBytes (← s.file path)
  | .stdin => textOfBytes s.stdin

/-- The outcome of a command line. -/
def run (arguments : List String) (environment : Environment) (surroundings : Surroundings) :
    Outcome :=
  match Job.prepare arguments environment with
  | .error outcome => outcome
  | .ok job => job.finish (surroundings.fetch job.input)

end CommandLine

end Annotations
