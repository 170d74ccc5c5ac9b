/-!
# Hard limits of a build profile

The lexer, the analyser and the log collector enforce limits that are fixed when the program
is built.  A `Limits` record holds one profile's values; `Limits.standard` is the profile this
library runs with (the development profile), and the build step checks other profiles
against the same record.
-/

namespace COutline

/-- The fixed limits of one build profile. -/
structure Limits where
  /-- Largest string literal, in bytes, quotes included. -/
  maxStringSize : Nat
  /-- Longest identifier, in bytes. -/
  maxIdentifierLength : Nat
  /-- Longest comment, in bytes, delimiters included. -/
  maxCommentLength : Nat
  /-- Most tokens one compilation unit may produce. -/
  maxTokenCount : Nat
  /-- Deepest brace nesting the analyser accepts. -/
  maxBlockDepth : Nat
  /-- Most diagnostics kept for one compilation unit. -/
  maxDiagnostics : Nat
  /-- Most log events kept over all files. -/
  logBufferSize : Nat
  /-- Most log events kept for one file. -/
  maxLogEventsPerFile : Nat
  /-- The quietest level the logger may be set to (0 error, 1 warning, 2 info). -/
  securityMinLogLevel : Nat
deriving Repr, DecidableEq, Inhabited

/-- The development profile: the limits this library enforces. -/
def Limits.standard : Limits where
  maxStringSize := 1048576
  maxIdentifierLength := 255
  maxCommentLength := 1048576
  maxTokenCount := 1000000
  maxBlockDepth := 256
  maxDiagnostics := 1000
  logBufferSize := 10000
  maxLogEventsPerFile := 1000
  securityMinLogLevel := 1

/-- Where a build's limits were read from. -/
structure BuildOrigin where
  /-- The profile name, for example `development`. -/
  profile : String
  /-- The directory holding the profile files, relative to the workspace root. -/
  configDir : String
deriving Repr, DecidableEq, Inhabited

namespace BuildOrigin

/-- The origin of `Limits.standard`: `config/development.toml`. -/
def standard : BuildOrigin := ⟨"development", "config"⟩

/-- The profile file, `DIR/PROFILE.toml`. -/
def file (o : BuildOrigin) : String := o.configDir ++ "/" ++ o.profile ++ ".toml"

/-- `Generated from DIR/PROFILE.toml`. -/
def describe (o : BuildOrigin) : String := "Generated from " ++ o.file

end BuildOrigin

end COutline
