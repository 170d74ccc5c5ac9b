import COutline.Config.Limits
import COutline.Log.Event
import COutline.Text.Decimal

/-!
# Runtime preferences

Preferences a user may change between runs, in three groups: lexing, analysis and logging.
Each value has a default that an environment variable can override; a variable whose value
does not read as the field's type is ignored.  The analyser never nests deeper than the
build's limit, whatever the preference says: `effectiveMaxBlockDepth` clamps it to
`1 … Limits.standard.maxBlockDepth`.
-/

namespace COutline

/-- Environment variables, by name. -/
abbrev Environment := List (String × String)

/-- Preferences of the lexer. -/
structure LexicalPreferences where
  /-- Collect skipped characters and the longest identifier, string and comment. -/
  collectDetailedMetrics : Bool := true
  /-- Count comments towards the token limit. -/
  countCommentsTowardsLimit : Bool := true
  /-- Give the lexical fault's position in its log event. -/
  includePositionInErrors : Bool := true
deriving Repr, DecidableEq, Inhabited

/-- Preferences of the analyser. -/
structure AnalyzerPreferences where
  /-- Report skipped constructs and fail on blocks that are never closed. -/
  strictMode : Bool := false
  /-- Fail when a function name is defined a second time. -/
  rejectDuplicateFunctions : Bool := false
  /-- Deepest brace nesting wanted; clamped to the build's limit. -/
  maxBlockDepth : Nat := Limits.standard.maxBlockDepth
  /-- Log each recognized function as a success event. -/
  logRecognizedFunctions : Bool := true
deriving Repr, DecidableEq, Inhabited

/-- Preferences of the logger. -/
structure LoggingPreferences where
  /-- Write events as JSON lines instead of text lines. -/
  useStructuredLogging : Bool := false
  /-- Write events other than errors to the console too. -/
  enableConsoleLogging : Bool := false
  /-- The most verbose level wanted. -/
  minLogLevel : Level := .info
  /-- Print the per-file summary of errors and warnings. -/
  enableCargoStyleOutput : Bool := true
  /-- Tag events with the file being processed. -/
  includeFileContext : Bool := true
deriving Repr, DecidableEq, Inhabited

/-- All runtime preferences. -/
structure RuntimeConfig where
  lexical : LexicalPreferences := {}
  analyzer : AnalyzerPreferences := {}
  logging : LoggingPreferences := {}
deriving Repr, DecidableEq, Inhabited

/-- The depth limit the analyser enforces: the preference clamped to `1 … 256`. -/
def AnalyzerPreferences.effectiveMaxBlockDepth (p : AnalyzerPreferences) : Nat :=
  min (max p.maxBlockDepth 1) Limits.standard.maxBlockDepth

namespace Environment

/-- The value of variable `name`. -/
def get? (env : Environment) (name : String) : Option String := env.lookup name

/-- A boolean variable, or `d` when it is absent or not `true`/`false`. -/
def bool (env : Environment) (name : String) (d : Bool) : Bool :=
  ((env.get? name).bind Decimal.parseBool?).getD d

/-- A word-sized unsigned variable, or `d` when it is absent or unreadable. -/
def word (env : Environment) (name : String) (d : Nat) : Nat :=
  ((env.get? name).bind fun s => Decimal.parseUnsigned? s Decimal.wordMax).getD d

/-- A level variable, or `d` when it is absent or unreadable. -/
def level (env : Environment) (name : String) (d : Level) : Level :=
  ((env.get? name).bind Level.parse?).getD d

end Environment

/-- Lexing preferences with environment overrides. -/
def LexicalPreferences.fromEnvironment (env : Environment) : LexicalPreferences where
  collectDetailedMetrics := env.bool "MINIC_LEXICAL_DETAILED_METRICS" true
  countCommentsTowardsLimit := env.bool "MINIC_LEXICAL_COUNT_COMMENTS" true
  includePositionInErrors := env.bool "MINIC_LEXICAL_INCLUDE_POSITIONS" true

/-- Analysis preferences with environment overrides. -/
def AnalyzerPreferences.fromEnvironment (env : Environment) : AnalyzerPreferences where
  strictMode := env.bool "MINIC_ANALYZER_STRICT" false
  rejectDuplicateFunctions := env.bool "MINIC_ANALYZER_REJECT_DUPLICATES" false
  maxBlockDepth := env.word "MINIC_ANALYZER_MAX_BLOCK_DEPTH" Limits.standard.maxBlockDepth
  logRecognizedFunctions := env.bool "MINIC_ANALYZER_LOG_FUNCTIONS" true

/-- Logging preferences with environment overrides. -/
def LoggingPreferences.fromEnvironment (env : Environment) : LoggingPreferences where
  useStructuredLogging := env.bool "MINIC_LOGGING_USE_STRUCTURED" false
  enableConsoleLogging := env.bool "MINIC_LOGGING_ENABLE_CONSOLE" false
  minLogLevel := env.level "MINIC_LOGGING_MIN_LEVEL" .info
  enableCargoStyleOutput := env.bool "MINIC_LOGGING_CARGO_STYLE" true
  includeFileContext := env.bool "MINIC_LOGGING_INCLUDE_FILE_CONTEXT" true

/-- All preferences with environment overrides. -/
def RuntimeConfig.fromEnvironment (env : Environment) : RuntimeConfig :=
  ⟨.fromEnvironment env, .fromEnvironment env, .fromEnvironment env⟩

/-- The quietest level the build allows: warnings are never filtered out. -/
def Level.securityFloor : Level :=
  match Limits.standard.securityMinLogLevel with
  | 0 => .error
  | 1 => .warning
  | _ => .info

/-- The most verbose level a logger set up from `p` emits: the preference, but never quieter
    than the security floor. -/
def LoggingPreferences.effectiveLevel (p : LoggingPreferences) : Level :=
  p.minLogLevel.verbosest Level.securityFloor

end COutline
