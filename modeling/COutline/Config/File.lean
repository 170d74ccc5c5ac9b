import COutline.Config.Overlay
import COutline.Toml.Decode
import COutline.Json.Value
import COutline.Json.Schema
import COutline.Source.File

/-!
# Preferences and limits from TOML files and JSON values

A preferences file names any of the preferences of `RuntimeConfig` in the tables `[lexical]`,
`[analyzer]` and `[logging]`; whatever it leaves out keeps its default.  A profile file of the
build names every limit of `Limits`, in the tables `[lexical]`, `[syntax]` and `[logging]`.
Both ignore keys they do not know.  Preferences also come as JSON values decoded against the
same shapes (`RuntimeConfig.ofJsonValue`), where a group or a preference written as `null` is
refused like any other value of the wrong type.

A preferences file that cannot be read or decoded is a `PreferencesError`: its message says
which (`Failed to read preferences file …`, `Invalid preferences TOML: …`), and its listing is
the debugging record a failing command line prints.
-/

namespace COutline

namespace Shape

/-- A boolean that takes its default when left out. -/
def flag : Shape := .defaulted .boolean

/-- `LexicalPreferences`: each preference takes its default when left out. -/
def lexicalPreferences : Shape :=
  .record "LexicalPreferences" [
    ("collect_detailed_metrics", flag),
    ("count_comments_towards_limit", flag),
    ("include_position_in_errors", flag)]

/-- `AnalyzerPreferences`: each preference takes its default when left out. -/
def analyzerPreferences : Shape :=
  .record "AnalyzerPreferences" [
    ("strict_mode", flag),
    ("reject_duplicate_functions", flag),
    ("max_block_depth", .defaulted word),
    ("log_recognized_functions", flag)]

/-- `LoggingPreferences`: each preference takes its default when left out. -/
def loggingPreferences : Shape :=
  .record "LoggingPreferences" [
    ("use_structured_logging", flag),
    ("enable_console_logging", flag),
    ("min_log_level", .defaulted (.variants (Level.all.map (·.word)))),
    ("enable_cargo_style_output", flag),
    ("include_file_context", flag)]

/-- `RuntimeConfig`: three groups of preferences, each group and each preference taking its
    default when left out. -/
def runtimeConfig : Shape :=
  .record "RuntimeConfig" [
    ("lexical", .defaulted lexicalPreferences),
    ("analyzer", .defaulted analyzerPreferences),
    ("logging", .defaulted loggingPreferences)]

/-- A build profile: every limit, in three groups. -/
def limits : Shape :=
  .record "CompileTimeConfig" [
    ("lexical", .record "LexicalLimits" [
      ("max_string_size", word),
      ("max_identifier_length", word),
      ("max_comment_length", word),
      ("max_token_count", word)]),
    ("syntax", .record "SyntaxLimits" [
      ("max_block_depth", word),
      ("max_diagnostics", word)]),
    ("logging", .record "LoggingLimits" [
      ("log_buffer_size", word),
      ("max_log_events_per_file", word),
      ("security_min_log_level", .unsigned "u8" 255)])]

end Shape

/-- Read preferences from TOML text, laid over `base`. -/
def RuntimeConfig.ofToml (base : RuntimeConfig) (text : String) :
    Except Toml.TomlError RuntimeConfig := do
  let j ← Toml.decodeText Shape.runtimeConfig text
  (base.overlayJson j).mapError fun message => { message }

/-- Preferences from a JSON value in the shape of `RuntimeConfig`, laid over the defaults. -/
def RuntimeConfig.ofJsonValue (v : Json) : Except String RuntimeConfig := do
  let j ← (Shape.runtimeConfig.decodeValue v).mapError Json.decodeMessage
  RuntimeConfig.overlayJson {} j

/-- Lexical preferences from a JSON value, laid over the defaults. -/
def LexicalPreferences.ofJsonValue (v : Json) : Except String LexicalPreferences := do
  let j ← (Shape.lexicalPreferences.decodeValue v).mapError Json.decodeMessage
  return (← RuntimeConfig.overlayJson {} (.obj [("lexical", j)])).lexical

/-- Analyzer preferences from a JSON value, laid over the defaults. -/
def AnalyzerPreferences.ofJsonValue (v : Json) : Except String AnalyzerPreferences := do
  let j ← (Shape.analyzerPreferences.decodeValue v).mapError Json.decodeMessage
  return (← RuntimeConfig.overlayJson {} (.obj [("analyzer", j)])).analyzer

/-- The natural number under `group.field`. -/
def Json.natAtPath (j : Json) (group field : String) : Option Nat :=
  match (j.field? group).bind (·.field? field) with
  | some (.num n) => some n.toNat
  | _ => none

/-- Limits from the normalized record of `Shape.limits`. -/
def Limits.ofJson? (j : Json) : Option Limits := do
  pure {
    maxStringSize := ← j.natAtPath "lexical" "max_string_size"
    maxIdentifierLength := ← j.natAtPath "lexical" "max_identifier_length"
    maxCommentLength := ← j.natAtPath "lexical" "max_comment_length"
    maxTokenCount := ← j.natAtPath "lexical" "max_token_count"
    maxBlockDepth := ← j.natAtPath "syntax" "max_block_depth"
    maxDiagnostics := ← j.natAtPath "syntax" "max_diagnostics"
    logBufferSize := ← j.natAtPath "logging" "log_buffer_size"
    maxLogEventsPerFile := ← j.natAtPath "logging" "max_log_events_per_file"
    securityMinLogLevel := ← j.natAtPath "logging" "security_min_log_level" }

/-- Read a build profile from TOML text. -/
def Limits.ofToml (text : String) : Except Toml.TomlError Limits := do
  let j ← Toml.decodeText Shape.limits text
  match Limits.ofJson? j with
  | some l => pure l
  | none => throw { message := "invalid limits" }

/-- Why a preferences file gave no preferences. -/
inductive PreferencesError where
  | unreadable (path : String) (cause : FileError)
  /-- The text of the file and what is wrong with it. -/
  | invalid (text : String) (error : Toml.TomlError)
deriving Repr, Inhabited

namespace PreferencesError

/-- The message. -/
def message : PreferencesError → String
  | unreadable path cause => "Failed to read preferences file '" ++ path ++ "': " ++ cause.message
  | invalid text e => "Invalid preferences TOML: " ++ e.render text

/-- The debugging record: `Io { path, source }` or `Parse(TomlError { … })`. -/
def listing : PreferencesError → String
  | unreadable path cause =>
    "Io \x7b path: " ++ Text.listed path ++ ", source: " ++ cause.debugText ++ " \x7d"
  | invalid text e => "Parse(" ++ e.listing text ++ ")"

end PreferencesError

/-- Load preferences from the file at `path`, read by `readText`, laid over `base`. -/
def RuntimeConfig.loadWith (readText : String → Except FileError String) (base : RuntimeConfig)
    (path : String) : Except PreferencesError RuntimeConfig := do
  let text ← (readText path).mapError (.unreadable path)
  (base.ofToml text).mapError (.invalid text)

/-- Load preferences from the file at `path` of `fs`, laid over `base`. -/
def RuntimeConfig.load (fs : MemoryFiles) (base : RuntimeConfig) (path : String) :
    Except PreferencesError RuntimeConfig :=
  RuntimeConfig.loadWith fs.readText base path

end COutline
