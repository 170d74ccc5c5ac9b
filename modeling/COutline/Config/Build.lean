import COutline.Config.File

/-!
# The build step that fixes the limits

Before the library is compiled, a build step reads the profile file
`ROOT/DIR/PROFILE.toml` (by default `config/development.toml`), checks its limits, and writes
them out as constants.  It tells the build tool which inputs it depends on by printing
`cargo:` lines, and stops the build with a message when the file is missing, unreadable or
invalid, or when a limit breaks one of these rules, checked in this order:

1. the block depth is at least 1,
2. the block depth is at most 10000,
3. the token count is at most 100000000,
4. a file keeps no more log events than the whole buffer,
5. the security level is at most 2,
6. the `production` profile nests at most 1000 blocks deep.
-/

namespace COutline

/-- A rule of `Limits` that a build profile breaks. -/
inductive LimitViolation where
  | depthZero
  | depthAboveAbsolute
  | tokensAboveAbsolute
  | eventsAboveBuffer
  | levelTooHigh
  | depthAboveProduction
deriving Repr, DecidableEq, Inhabited

/-- The message that stops the build. -/
def LimitViolation.message : LimitViolation → String
  | .depthZero => "SECURITY: max_block_depth must be at least 1"
  | .depthAboveAbsolute => "SECURITY: max_block_depth exceeds absolute maximum"
  | .tokensAboveAbsolute => "SECURITY: max_token_count exceeds absolute maximum"
  | .eventsAboveBuffer => "SECURITY: max_log_events_per_file cannot exceed log_buffer_size"
  | .levelTooHigh => "SECURITY: security_min_log_level too high (max: 2)"
  | .depthAboveProduction => "PRODUCTION: max_block_depth too high for production"

namespace Limits

/-- The deepest nesting any profile may allow. -/
def absoluteMaxBlockDepth : Nat := 10000

/-- The most tokens any profile may allow. -/
def absoluteMaxTokenCount : Nat := 100000000

/-- The deepest nesting the `production` profile may allow. -/
def productionMaxBlockDepth : Nat := 1000

/-- The first rule that the limits `l` of profile `profile` break. -/
def violation? (l : Limits) (profile : String) : Option LimitViolation :=
  if l.maxBlockDepth = 0 then some .depthZero
  else if l.maxBlockDepth > absoluteMaxBlockDepth then some .depthAboveAbsolute
  else if l.maxTokenCount > absoluteMaxTokenCount then some .tokensAboveAbsolute
  else if l.maxLogEventsPerFile > l.logBufferSize then some .eventsAboveBuffer
  else if l.securityMinLogLevel > 2 then some .levelTooHigh
  else if profile = "production" && l.maxBlockDepth > productionMaxBlockDepth then
    some .depthAboveProduction
  else none

/-- The generated constants of profile `profile`. -/
def constantsText (l : Limits) (profile : String) : String :=
  let item (name type : String) (v : Nat) : String :=
    "        pub const " ++ name ++ ": " ++ type ++ " = " ++ toString v ++ ";\n"
  "\n// Generated compile-time constants from TOML configuration\n" ++
  "// Profile: " ++ profile ++ "\n" ++
  "// DO NOT EDIT - Generated by build.rs\n\n" ++
  "pub mod compile_time \x7b\n" ++
  "    pub mod lexical \x7b\n" ++
  item "MAX_STRING_SIZE" "usize" l.maxStringSize ++
  item "MAX_IDENTIFIER_LENGTH" "usize" l.maxIdentifierLength ++
  item "MAX_COMMENT_LENGTH" "usize" l.maxCommentLength ++
  item "MAX_TOKEN_COUNT" "usize" l.maxTokenCount ++
  "    \x7d\n\n" ++
  "    pub mod syntax \x7b\n" ++
  item "MAX_BLOCK_DEPTH" "usize" l.maxBlockDepth ++
  item "MAX_DIAGNOSTICS" "usize" l.maxDiagnostics ++
  "    \x7d\n\n" ++
  "    pub mod logging \x7b\n" ++
  item "LOG_BUFFER_SIZE" "usize" l.logBufferSize ++
  item "MAX_LOG_EVENTS_PER_FILE" "usize" l.maxLogEventsPerFile ++
  item "SECURITY_MIN_LOG_LEVEL" "u8" l.securityMinLogLevel ++
  "    \x7d\n" ++
  "\x7d\n"

end Limits

/-- Why the build step stopped the build. -/
inductive BuildFailure where
  /-- Nothing is at `path`; the profile was looked for in `dir` under `root`. -/
  | missing (path root dir profile : String)
  | unreadable (path : String) (cause : FileError)
  | invalid (path text : String) (error : Toml.TomlError)
  | violation (v : LimitViolation)
deriving Repr, Inhabited

/-- The message that stops the build. -/
def BuildFailure.message : BuildFailure → String
  | .missing path root dir profile =>
    "Configuration file not found: " ++ path ++ "\nWorkspace root: " ++ root ++
      "\nLooking for: " ++ root ++ "/" ++ dir ++ "/" ++ profile ++ ".toml"
  | .unreadable path cause => "Failed to read " ++ path ++ ": " ++ cause.message
  | .invalid path text e => "Invalid TOML in " ++ path ++ ": " ++ e.render text
  | .violation v => v.message

/-- `base` joined with `piece`: an absolute piece replaces it, else one `/` separates them. -/
def joinPath (base piece : String) : String :=
  if piece.startsWith "/" then piece
  else if base.endsWith "/" then base ++ piece
  else base ++ "/" ++ piece

/-- What the build step printed and what it produced. -/
structure BuildRun where
  /-- The `cargo:` lines, in order. -/
  lines : List String
  /-- The generated constants, or why the build stopped. -/
  outcome : Except BuildFailure String
deriving Inhabited

/-- The build step in the workspace `fs` whose root is called `root`, with the environment
    `env` naming the profile (`MINIC_BUILD_PROFILE`) and its directory (`MINIC_CONFIG_DIR`). -/
def BuildRun.run (fs : MemoryFiles) (root : String) (env : Environment) : BuildRun :=
  let profile := (env.get? "MINIC_BUILD_PROFILE").getD "development"
  let dir := (env.get? "MINIC_CONFIG_DIR").getD "config"
  let path := joinPath (joinPath root dir) (profile ++ ".toml")
  let heading := ["cargo:rerun-if-changed=build.rs",
    "cargo:rerun-if-env-changed=MINIC_BUILD_PROFILE",
    "cargo:rerun-if-env-changed=MINIC_CONFIG_DIR",
    "cargo:rerun-if-changed=" ++ path]
  let inside := if path.startsWith (root ++ "/") then some (path.drop (root.length + 1)).toString
    else none
  let read : Except BuildFailure Limits := do
    let relative ← match inside with
      | some p => if fs.holds p then pure p else throw (.missing path root dir profile)
      | none => throw (.missing path root dir profile)
    let text ← (fs.readText relative).mapError (.unreadable path)
    let limits ← (Limits.ofToml text).mapError (.invalid path text)
    match limits.violation? profile with
    | some v => throw (.violation v)
    | none => pure limits
  match read with
  | .error e => ⟨heading, .error e⟩
  | .ok limits =>
    ⟨heading ++ ["cargo:rustc-env=MINIC_BUILD_PROFILE=" ++ profile,
      "cargo:rustc-env=MINIC_CONFIG_DIR=" ++ dir], .ok (limits.constantsText profile)⟩

/-- The printed lines, each ended by a line feed. -/
def BuildRun.stdout (r : BuildRun) : String := String.join (r.lines.map (· ++ "\n"))

end COutline
