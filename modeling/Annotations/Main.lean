import Annotations.CommandLine.Run

/-!
# The Command

Fetches what a run needs from the outside world and writes out what it decides.
-/

namespace Annotations

namespace CommandLine

/-- The reason behind a failed attempt to read. -/
def ReadFault.ofError : IO.Error → ReadFault
  | .noFileOrDirectory .. => .missing
  | .inappropriateType .. => .directory
  | error => .other (toString error)

/-- The bytes read so far, and all that is left in a stream. -/
partial def readAll (stream : IO.FS.Stream) (read : ByteArray) : IO ByteArray := do
  let bytes ← stream.read 65536
  if bytes.isEmpty then return read else readAll stream (read ++ bytes)

/-- Bytes from the outside world, or the reason why there are none. -/
def attempt (action : IO ByteArray) : IO (Except ReadFault ByteArray) := do
  try return .ok (← action) catch error => return .error (.ofError error)

/-- The text of an input. -/
def fetch : Input → IO (Except ReadFault String)
  | .argument text => return .ok text
  | .file path => return (← attempt (IO.FS.readBinFile path)) >>= textOfBytes
  | .stdin => return (← attempt (do readAll (← IO.getStdin) .empty)) >>= textOfBytes

/-- Writes an outcome to both streams. -/
def emit (outcome : Outcome) : IO UInt32 := do
  (← IO.getStdout).putStr outcome.stdout
  (← IO.getStderr).putStr outcome.stderr
  return outcome.exitCode.toUInt32

end CommandLine

end Annotations

open Annotations CommandLine in
/-- The command. -/
def main (arguments : List String) : IO UInt32 := do
  let environment : Environment := {
    maxDepth := ← IO.getEnv Settings.maxDepthVariable
    logLevel := ← IO.getEnv Settings.logLevelVariable }
  match Job.prepare arguments environment with
  | .error outcome => emit outcome
  | .ok job => emit (job.finish (← fetch job.input))
