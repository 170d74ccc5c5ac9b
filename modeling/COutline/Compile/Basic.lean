import COutline.Analysis.Basic
import COutline.Json.Records
import COutline.Lexer.Basic
import COutline.Report.Code
import COutline.Source.File
import COutline.Source.Map

/-!
# Compiling one unit

A compilation unit is lexed and then analysed; a lexical fault ends it before the analysis.
The result keeps every token (comments included), the program, the diagnostics and the
lexing metrics.  A failure renders as a caret snippet of the offending line when it has a
span, else as one headline, followed by the registered recommended action.
-/

namespace COutline

/-- Why a compilation unit produced no program. -/
inductive CompileError where
  | unreadable (path : String) (e : FileError)
  | lexical (e : LexError)
  | analysis (e : SyntaxError)
deriving Repr, Inhabited

namespace CompileError

/-- `Failed to read 'PATH': …`, `Lexical analysis failed: …` or `Syntax analysis failed: …`. -/
def message : CompileError → String
  | unreadable p e => "Failed to read '" ++ p ++ "': " ++ e.message
  | lexical e => "Lexical analysis failed: " ++ e.message
  | analysis e => "Syntax analysis failed: " ++ e.message

/-- The diagnostic code. -/
def code : CompileError → String
  | unreadable .. => "E010"
  | lexical e => e.code
  | analysis e => e.code

/-- The span of the failure, when it has one. -/
def span? : CompileError → Option Span
  | unreadable .. => none
  | lexical e => some e.span
  | analysis e => some e.span

/-- The failure as shown to a user of `source` named `file`: a snippet or a headline, then
    `  = help: …` when the code is registered. -/
def render (e : CompileError) (source file : String) : String :=
  let base := match e.span? with
    | some s => (SourceMap.new file source).formatError s e.code e.message
    | none => "error[" ++ e.code ++ "]: " ++ e.message ++ "\n"
  match CodeInfo.find? e.code with
  | some info => base ++ "  = help: " ++ info.action ++ "\n"
  | none => base

end CompileError

/-- Everything one compilation unit produced. -/
structure Compilation where
  file : String
  /-- Every token, comments included. -/
  tokens : List Token
  program : Program
  diagnostics : List Diagnostic
  dropped : Nat
  metrics : LexMetrics
deriving Inhabited

namespace Compilation

/-- Whether any diagnostic was reported, kept or not. -/
def hasDiagnostics (c : Compilation) : Bool := !c.diagnostics.isEmpty || c.dropped > 0

/-- `{"file", "program", "diagnostics", "metrics"}`. -/
def summary (c : Compilation) : Json :=
  .obj [("file", .str c.file), ("program", c.program.toJson),
    ("diagnostics", .arr (c.diagnostics.map Diagnostic.toJson)), ("metrics", c.metrics.toJson)]

/-- The event that closes a successful compilation, with the measured duration as text. -/
def completedEvent (c : Compilation) (durationMs : String) : LogEvent :=
  (LogEvent.success "I050" "Compilation unit processed").withFields
    [("file", c.file), ("tokens", toString c.tokens.length),
     ("functions", toString c.program.count), ("diagnostics", toString c.diagnostics.length),
     ("duration_ms", durationMs)]

end Compilation

/-- The outcome of compiling one unit and the events logged meanwhile, in order. -/
structure CompileRun where
  result : Except CompileError Compilation
  log : List LogEvent
  /-- The text compiled (empty when it could not be read), which error reports quote. -/
  source : String := ""

/-- Compile `source`, named `file`, under the preferences `c`; `durationMs` is the measured
    duration the closing event reports. -/
def compileSource (c : RuntimeConfig) (source file : String) (durationMs : String := "0.00") :
    CompileRun :=
  let start := (LogEvent.info "Starting compilation").withFields
    [("file", file), ("bytes", toString source.utf8ByteSize)]
  let lexed := tokenize c.lexical source file
  let lexLog := Lexer.events c.lexical source file lexed
  match lexed with
  | .error e => ⟨.error (.lexical e), start :: lexLog, source⟩
  | .ok r =>
    let a := analyzeStream c.analyzer (TokenStream.ofList r.tokens)
    match a.result with
    | .error e => ⟨.error (.analysis e), start :: lexLog ++ a.log, source⟩
    | .ok found =>
      let out : Compilation := ⟨file, r.tokens, found.program, found.diagnostics, found.dropped,
        r.metrics⟩
      ⟨.ok out, start :: lexLog ++ a.log ++ [out.completedEvent durationMs], source⟩

/-- The event logged when a source file cannot be read. -/
def unreadableEvent (path : String) (e : FileError) : LogEvent :=
  (LogEvent.error "E010" "Failed to read source file").withFields
    [("file", path), ("error", e.message)]

/-- Read the file at `path` of `fs` and compile it, named by that path, under `c`. -/
def compileFile (fs : MemoryFiles) (c : RuntimeConfig) (path : String)
    (durationMs : String := "0.00") : CompileRun :=
  match fs.readText path with
  | .error e => ⟨.error (.unreadable path e), [unreadableEvent path e], ""⟩
  | .ok source => compileSource c source path durationMs

end COutline
