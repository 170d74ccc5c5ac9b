/-!
# Command-line options

The command line takes at most one source file and these flags, in any order:
`--help`/`-h`, `--strict`, `--reject-duplicates`, `--json`, `--quiet` and `--config FILE`.
Any other argument that starts with `-` is an unknown option, and a second file is an extra
argument; both stop the program with a usage message.  Without a file the built-in sample
`int main() { return 0; }` is compiled, named `<sample>`.
-/

namespace COutline

namespace Cli

/-- What the command line asks for. -/
structure Options where
  input : Option String := none
  configPath : Option String := none
  strict : Bool := false
  rejectDuplicates : Bool := false
  json : Bool := false
  quiet : Bool := false
  help : Bool := false
deriving Repr, DecidableEq, Inhabited

/-- The source compiled when no file is given. -/
def sampleSource : String := "int main() \x7b return 0; \x7d"

/-- The name the sample is compiled under. -/
def sampleName : String := "<sample>"

/-- The version the help text announces. -/
def version : String := "0.1.0"

namespace Options

/-- Read the arguments after the program name, left to right. -/
def parse : List String → Options → Except String Options
  | [], o => pure o
  | arg :: rest, o =>
    if arg = "--help" || arg = "-h" then parse rest { o with help := true }
    else if arg = "--strict" then parse rest { o with strict := true }
    else if arg = "--reject-duplicates" then parse rest { o with rejectDuplicates := true }
    else if arg = "--json" then parse rest { o with json := true }
    else if arg = "--quiet" then parse rest { o with quiet := true }
    else if arg = "--config" then
      match rest with
      | path :: rest => parse rest { o with configPath := some path }
      | [] => throw "--config requires a file path"
    else if arg.startsWith "-" then throw ("Unknown option '" ++ arg ++ "'")
    else if o.input.isSome then throw ("Unexpected extra argument '" ++ arg ++ "'")
    else parse rest { o with input := some arg }

end Options

/-- The lines printed when the arguments cannot be read. -/
def usageError (program message : String) : String :=
  "Error: " ++ message ++ "\n" ++
  "Usage: " ++ program ++ " [OPTIONS] [FILE]\n" ++
  "       " ++ program ++ " --help\n"

/-- The help text. -/
def helpText (program : String) : String :=
  "minic compiler v" ++ version ++ "\n" ++
  "Lexer and function-level grammar analyzer for a small C-like language\n\n" ++
  "USAGE:\n" ++
  "    " ++ program ++ " [OPTIONS] [FILE]\n\n" ++
  "ARGUMENTS:\n" ++
  "    [FILE]    Source file to compile (default: built-in sample)\n\n" ++
  "OPTIONS:\n" ++
  "    --help                Show this help message\n" ++
  "    --strict              Report skipped constructs; fail on unclosed blocks\n" ++
  "    --reject-duplicates   Fail when a function name is defined twice\n" ++
  "    --json                Print program, diagnostics and metrics as JSON\n" ++
  "    --quiet               Suppress console logging and the error summary\n" ++
  "    --config FILE         Load runtime preferences from a TOML file\n\n" ++
  "EXAMPLES:\n" ++
  "    " ++ program ++ "                    # Compile the built-in sample\n" ++
  "    " ++ program ++ " main.c --strict    # Strict analysis of a file\n" ++
  "    " ++ program ++ " main.c --json      # Machine-readable output\n"

end Cli

end COutline
