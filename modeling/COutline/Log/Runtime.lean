import COutline.Config.Limits
import COutline.Log.Collector
import COutline.Log.Sink
import COutline.Report.Code

/-!
# Logging set up once per process

A process holds three logging slots, each of which can be filled only once: the runtime
preferences, the service built from them, and the error collector.  `Runtime.init` checks the
build's buffer limits and then fills the three in that order; a slot found filled stops it with
that slot's message, and what it filled before stays filled.  Logging counts as set up once the
service and the collector are in place (`Runtime.isInitialized`).

At start-up the lexer and the analyser each check that every code they report is in the code
registry (`checkRegistered`, one check applied to each list of codes) and announce their fixed
limits at debug level.  `Runtime.startup` is the whole sequence the program runs before it
compiles.
-/

namespace COutline

/-- Why the build's log buffer limits cannot be used, if they cannot. -/
def Limits.validateLogging (l : Limits) : Except String Unit :=
  if !(100 ≤ l.logBufferSize && l.logBufferSize ≤ 100000) then
    .error ("Log buffer size out of range: " ++ toString l.logBufferSize)
  else if l.maxLogEventsPerFile > l.logBufferSize then
    .error "Max log events per file exceeds total buffer size"
  else .ok ()

/-- The process-wide logging slots. -/
structure Runtime where
  preferences : Option LoggingPreferences := none
  service : Option Sink := none
  collector : Option Collector := none

namespace Runtime

/-- Whether logging is set up: the service and the collector are in place. -/
def isInitialized (rt : Runtime) : Bool := rt.service.isSome && rt.collector.isSome

/-- The event announcing that logging started. -/
def startedEvent : LogEvent := LogEvent.success "I004" "Global logging system initialized"

/-- Set up logging from `p`: check the build's buffer limits, then fill the preferences, the
    service built from them and the collector, each only if it is empty.  The state comes back
    in every case, with whatever was filled before a failure; on success logging is announced. -/
def init (rt : Runtime) (p : LoggingPreferences) : Runtime × Except String LogEvent :=
  match Limits.standard.validateLogging with
  | .error e => (rt, .error ("Configuration validation failed: " ++ e))
  | .ok () =>
    match rt.preferences with
    | some _ => (rt, .error "Runtime preferences already initialized")
    | none =>
      let rt := { rt with preferences := some p }
      match rt.service with
      | some _ => (rt, .error "Global logger already initialized")
      | none =>
        -- the service reads the preferences just installed
        let rt := { rt with service := some (Sink.ofPreferences p) }
        match rt.collector with
        | some _ => (rt, .error "Global error collector already initialized")
        | none => ({ rt with collector := some {} }, .ok startedEvent)

end Runtime

/-- Check that each of `codes` is registered, in order: the first that is not stops the check,
    named as a code of `what`. -/
def checkRegistered (what : String) (codes : List String) : Except String Unit :=
  match codes.find? fun c => (CodeInfo.find? c).isNone with
  | some c => .error (what ++ " code " ++ c ++ " not found in metadata registry")
  | none => .ok ()

/-- The codes the lexer reports. -/
def lexicalCodes : List String := ["E020", "E021", "E023", "E024", "E026", "E027"]

/-- The codes the analyser reports. -/
def syntaxCodes : List String := ["E040", "E041", "E042", "E044", "W040", "W041", "W042"]

/-- The lexer's announcement of its limits. -/
def lexicalLimitsEvent : LogEvent :=
  (LogEvent.debug "Lexical security limits initialized").withFields
    [("max_string_size", toString Limits.standard.maxStringSize),
     ("max_identifier_length", toString Limits.standard.maxIdentifierLength),
     ("max_comment_length", toString Limits.standard.maxCommentLength),
     ("max_token_count", toString Limits.standard.maxTokenCount)]

/-- The analyser's announcement of its limits. -/
def syntaxLimitsEvent : LogEvent :=
  (LogEvent.debug "Syntax limits initialized").withFields
    [("max_block_depth", toString Limits.standard.maxBlockDepth),
     ("max_diagnostics", toString Limits.standard.maxDiagnostics)]

/-- The lexer's start-up: its codes are registered; then its limits are announced. -/
def initLexicalLogging : Except String LogEvent :=
  (checkRegistered "Lexical error" lexicalCodes).map fun () => lexicalLimitsEvent

/-- The analyser's start-up: its codes are registered; then its limits are announced. -/
def initSyntaxLogging : Except String LogEvent :=
  (checkRegistered "Syntax" syntaxCodes).map fun () => syntaxLimitsEvent

namespace Runtime

/-- What the program does before it compiles, in a fresh process: set up logging from `p`, then
    the lexer's and the analyser's start-up; the state and the events logged, in order.  The
    first failure stops it. -/
def startup (p : LoggingPreferences) : Except String (Runtime × List LogEvent) := do
  let (rt, started) := ({} : Runtime).init p
  let started ← started
  let lexical ← initLexicalLogging
  let analyser ← initSyntaxLogging
  pure (rt, [started, lexical, analyser])

end Runtime

end COutline
