import COutline.Cli.Options
import COutline.Config.File
import COutline.Compile.Basic
import COutline.Log.Sink
import COutline.Log.Collector
import COutline.Log.Runtime
import COutline.Text.Quote

/-!
# One run of the command-line program

`Cli.run` is the whole program as a function of what it reads: the arguments, the
environment, the files it opens and the clock readings it reports.  A run

1. reads the options (a usage error stops it with exit code 1; `--help` prints the help);
2. sets up the preferences: the environment's, then the `--config` file's over them, then
   the flags (`--strict`, `--reject-duplicates`; `--quiet` turns console logging and the
   summary off); a config file that cannot be loaded stops the run with its listing;
3. starts logging (`Runtime.startup`), announcing it and, at debug level, the fixed limits; a
   start-up that fails stops the run with its message;
4. compiles the file (or the built-in sample) and prints the listing or, with `--json`, the
   summary record; a compilation error is reported with a source snippet instead;
5. prints the summary of collected errors and warnings, when that is on and there is one.

Everything logged goes to the error stream through the sink the preferences choose.
-/

namespace COutline

namespace Cli

/-- What the program sees of the machine it runs on. -/
structure Host where
  /-- The text of the file at a path. -/
  readText : String → Except FileError String
  /-- The environment variables. -/
  env : Environment := []
  /-- The time stamp of structured log lines. -/
  timestamp : String := "<time>"
  /-- The measured duration of the compilation, in milliseconds with two decimals. -/
  durationMs : String := "0.00"

/-- What a run printed and how it ended. -/
structure Outcome where
  exit : Nat
  stdout : String := ""
  stderr : String := ""
deriving Repr, DecidableEq, Inhabited

/-- The program's name in its usage and help texts. -/
def programName : String := "minic_compiler"

/-- The preferences of a run: those read from the environment and the config file, with the
    command-line flags over them. -/
def Options.config (o : Options) (host : Host) : Except PreferencesError RuntimeConfig := do
  let base := RuntimeConfig.fromEnvironment host.env
  let c ← match o.configPath with
    | some path => RuntimeConfig.loadWith host.readText base path
    | none => pure base
  let c := if o.strict then { c with analyzer.strictMode := true } else c
  let c := if o.rejectDuplicates then { c with analyzer.rejectDuplicateFunctions := true } else c
  pure (if o.quiet then
    { c with logging.enableConsoleLogging := false, logging.enableCargoStyleOutput := false }
    else c)

/-- The listing of a compilation: its tokens, its functions, then its diagnostics. -/
def listing (c : Compilation) : String :=
  String.join (c.tokens.map (·.render ++ "\n")) ++
  String.join (c.program.functions.values.map (·.render ++ "\n")) ++
  String.join (c.diagnostics.map (·.render ++ "\n")) ++
  (if c.dropped > 0 then "... " ++ toString c.dropped ++ " more diagnostics not shown\n" else "")

/-- The error stream's lines for events logged outside any file. -/
def logLines (sink : Sink) (timestamp : String) (events : List LogEvent) : String :=
  String.join (events.filterMap fun e => (sink.line? timestamp e).map (· ++ "\n"))

/-- The error stream's lines for the events of compiling `file`, and the collector holding
    its errors and warnings. -/
def fileLog (sink : Sink) (timestamp file : String) (events : List LogEvent) :
    String × Collector :=
  let tagged := events.map (sink.inFile file 0)
  (logLines sink timestamp tagged, tagged.foldl (fun c e => c.record file e) {})

/-- Run the program on the arguments after its name. -/
def run (host : Host) (args : List String) : Outcome :=
  match Options.parse args {} with
  | .error message => { exit := 1, stderr := usageError programName message }
  | .ok o =>
    if o.help then { exit := 0, stdout := helpText programName }
    else
      match o.config host with
      | .error e => { exit := 1, stderr := "Error: " ++ e.listing ++ "\n" }
      | .ok config =>
        match Runtime.startup config.logging with
        | .error e => { exit := 1, stderr := "Error: " ++ Text.listed e ++ "\n" }
        | .ok (_, started) =>
          let sink := Sink.ofPreferences config.logging
          let startup := logLines sink host.timestamp started
          let source : Except (String × FileError) (String × String) :=
            match o.input with
            | some path => (host.readText path).map (·, path) |>.mapError (path, ·)
            | none => .ok (sampleSource, sampleName)
          match source with
          | .error (path, e) =>
            let failure := CompileError.unreadable path e
            { exit := 1,
              stderr := startup ++ logLines sink host.timestamp [unreadableEvent path e] ++
                failure.render "" path }
          | .ok (text, name) =>
            let r := compileSource config text name host.durationMs
            let (lines, collected) := fileLog sink host.timestamp name r.log
            let summary := if config.logging.enableCargoStyleOutput then collected.summary else ""
            match r.result with
            | .ok out =>
              { exit := 0,
                stdout := if o.json then out.summary.render ++ "\n" else listing out,
                stderr := startup ++ lines ++ summary }
            | .error e =>
              { exit := 1, stderr := startup ++ lines ++ e.render text name ++ summary }

end Cli

end COutline
