import COutline.Cli.Run
import COutline.Text.Timestamp
import Std.Time.DateTime.Timestamp

/-!
# The command-line program

The outer layer of `Cli.run`: it reads the `MINIC_*` environment variables and the files the
options name, stamps the run with the clock, runs the program, and prints what it printed
with its exit code.  The duration reported is that of one run, measured on a first run.
-/

open COutline

namespace COutline.Cli

/-- The environment variables the preferences read. -/
def environmentNames : List String :=
  ["MINIC_LEXICAL_DETAILED_METRICS", "MINIC_LEXICAL_COUNT_COMMENTS",
   "MINIC_LEXICAL_INCLUDE_POSITIONS", "MINIC_ANALYZER_STRICT", "MINIC_ANALYZER_REJECT_DUPLICATES",
   "MINIC_ANALYZER_MAX_BLOCK_DEPTH", "MINIC_ANALYZER_LOG_FUNCTIONS", "MINIC_LOGGING_USE_STRUCTURED",
   "MINIC_LOGGING_ENABLE_CONSOLE", "MINIC_LOGGING_MIN_LEVEL", "MINIC_LOGGING_CARGO_STYLE",
   "MINIC_LOGGING_INCLUDE_FILE_CONTEXT"]

/-- The reason a file could not be read, from the operating system's error. -/
def fileError : IO.Error → FileError
  | .noFileOrDirectory .. => .notFound
  | .permissionDenied .. => .permissionDenied
  | .inappropriateType _ 21 _ => .isDirectory
  | .inappropriateType _ 20 _ => .notADirectory
  | .otherError 21 _ => .isDirectory
  | .otherError 20 _ => .notADirectory
  | .invalidArgument _ 36 _ => .nameTooLong
  | .otherError 36 _ => .nameTooLong
  | _ => .notFound

/-- The bytes of the file at `path`, or why they cannot be read. -/
def readFile (path : String) : IO (Except FileError ByteArray) := do
  try
    return .ok (← IO.FS.readBinFile path)
  catch e =>
    return .error (fileError e)

/-- The text of a file read beforehand. -/
def textOf (files : List (String × Except FileError ByteArray)) (path : String) :
    Except FileError String := do
  let bytes ← (files.lookup path).getD (.error .notFound)
  match String.fromUTF8? bytes with
  | some s => pure s
  | none => throw .invalidUtf8

end COutline.Cli

/-- Run the program on its arguments. -/
def main (args : List String) : IO UInt32 := do
  let env ← Cli.environmentNames.filterMapM fun name => do
    return (← IO.getEnv name).map (name, ·)
  let paths := match Cli.Options.parse args {} with
    | .ok o => o.configPath.toList ++ o.input.toList
    | .error _ => []
  let files ← paths.mapM fun p => return (p, ← Cli.readFile p)
  let now ← Std.Time.Timestamp.now
  let host : Cli.Host :=
    { readText := Cli.textOf files, env, timestamp := Timestamp.text now.toNanosecondsSinceUnixEpoch.val }
  let started ← IO.monoNanosNow
  let first := Cli.run host args
  -- the branch needs the first run finished before the clock is read again
  if first.exit > 255 then IO.eprintln "exit code out of range"
  let finished ← IO.monoNanosNow
  let micros := (finished - started + 5000) / 10000
  let durationMs := toString (micros / 100) ++ "." ++ Timestamp.padded 2 (micros % 100)
  let outcome := Cli.run { host with durationMs } args
  IO.print outcome.stdout
  IO.eprint outcome.stderr
  return outcome.exit.toUInt32
