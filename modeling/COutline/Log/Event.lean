import COutline.Data.SortedMap
import COutline.Source.Span

/-!
# Log events

A log event has a level, a code, a message, an optional span and named context fields kept in
key order.  Levels are ordered from most to least severe: error, warning, info, debug; a level
filter passes an event when its level is at most the filter's.  Info events without a code of
their own carry `I000`, debug events `D000`.
-/

namespace COutline

/-- How severe an event is; `error` is the most severe. -/
inductive Level where
  | error
  | warning
  | info
  | debug
deriving Repr, DecidableEq, Inhabited

namespace Level

/-- The place in severity order: error 0, warning 1, info 2, debug 3. -/
def rank : Level → Nat
  | error => 0
  | warning => 1
  | info => 2
  | debug => 3

/-- Levels compare by severity rank. -/
instance : LE Level := ⟨fun a b => a.rank ≤ b.rank⟩

instance (a b : Level) : Decidable (a ≤ b) := inferInstanceAs (Decidable (a.rank ≤ b.rank))

/-- The more verbose (less severe) of two levels. -/
def verbosest (a b : Level) : Level := if a.rank ≤ b.rank then b else a

/-- The upper-case label shown in log lines. -/
def label : Level → String
  | error => "ERROR"
  | warning => "WARN"
  | info => "INFO"
  | debug => "DEBUG"

/-- The lower-case word used in preference files. -/
def word : Level → String
  | error => "error"
  | warning => "warning"
  | info => "info"
  | debug => "debug"

/-- Every level, most severe first. -/
def all : List Level := [error, warning, info, debug]

/-- Read a level the way environment values are read: case is ignored, and `warn` and the
    ranks `0`–`3` are accepted too. -/
def parse? (s : String) : Option Level :=
  match String.ofList (s.toList.map Char.toLower) with
  | "error" | "0" => some error
  | "warning" | "warn" | "1" => some warning
  | "info" | "2" => some info
  | "debug" | "3" => some debug
  | _ => none

end Level

/-- One logged occurrence. -/
structure LogEvent where
  level : Level
  code : String
  message : String
  span : Option Span := none
  /-- Named context fields, in key order. -/
  context : SortedMap String String := .empty
deriving Repr, Inhabited

namespace LogEvent

/-- An error event. -/
def error (code message : String) : LogEvent := ⟨.error, code, message, none, .empty⟩

/-- A warning event. -/
def warning (code message : String) : LogEvent := ⟨.warning, code, message, none, .empty⟩

/-- An info event that reports a success under its own code. -/
def success (code message : String) : LogEvent := ⟨.info, code, message, none, .empty⟩

/-- An info event without a code of its own. -/
def info (message : String) : LogEvent := ⟨.info, "I000", message, none, .empty⟩

/-- A debug event. -/
def debug (message : String) : LogEvent := ⟨.debug, "D000", message, none, .empty⟩

/-- Attach a span. -/
def withSpan (e : LogEvent) (s : Span) : LogEvent := { e with span := some s }

/-- Add context fields in order; a later value replaces an earlier one of the same key. -/
def withFields (e : LogEvent) (fields : List (String × String)) : LogEvent :=
  { e with context := fields.foldl (fun m p => m.insert p.1 p.2) e.context }

/-- Whether the event is an error. -/
def isError (e : LogEvent) : Bool := e.level == .error

/-- Whether the event is a warning. -/
def isWarning (e : LogEvent) : Bool := e.level == .warning

/-- `[LEVEL] CODE - message`, followed by ` at line:column` of the span's start. -/
def format (e : LogEvent) : String :=
  "[" ++ e.level.label ++ "] " ++ e.code ++ " - " ++ e.message ++
    match e.span with
    | some s => " at " ++ s.start.render
    | none => ""

end LogEvent

end COutline
