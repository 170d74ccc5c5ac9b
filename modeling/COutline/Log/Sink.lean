import COutline.Config.Preferences
import COutline.Json.Records

/-!
# Where logged events are written

A logging service is a level filter in front of one backend (`Service`): it hands the backend
the events whose level is at most its own and drops the others.  The program logs through one
sink, the service chosen by its logging preferences: its level is the effective level
(`LoggingPreferences.effectiveLevel`), and its backend writes each event it is handed as one
line of the error stream:

* as a structured JSON record, when structured logging is chosen;
* otherwise as `[LEVEL] CODE - message at l:c`, for errors always and for other levels only
  when console logging is on.

Events logged while a file is processed carry the file's path and number as the context
fields `file` and `file_id`, unless file context is turned off.
-/

namespace COutline

/-- A level filter in front of one backend. -/
structure Service where
  /-- The most verbose level handed on. -/
  minLevel : Level
deriving Repr, DecidableEq, Inhabited

namespace Service

/-- Whether events of level `l` are handed on. -/
def admits (svc : Service) (l : Level) : Bool := l.rank ≤ svc.minLevel.rank

/-- Log `e`: what `backend` makes of it, when its level lets it through. -/
def logEvent {α : Type} (svc : Service) (backend : LogEvent → Option α) (e : LogEvent) :
    Option α :=
  if svc.admits e.level then backend e else none

end Service

/-- The logger set up from logging preferences: its service, the kind of its backend, and
    whether events carry the file they were logged for. -/
structure Sink where
  service : Service
  structured : Bool
  verbose : Bool
  fileContext : Bool
deriving Repr, DecidableEq, Inhabited

namespace Sink

/-- The sink of the preferences `p`. -/
def ofPreferences (p : LoggingPreferences) : Sink :=
  ⟨⟨p.effectiveLevel⟩, p.useStructuredLogging, p.enableConsoleLogging, p.includeFileContext⟩

/-- What the backend writes for an event it is handed, stamped with `timestamp`, if anything. -/
def write (s : Sink) (timestamp : String) (e : LogEvent) : Option String :=
  if s.structured then some (e.toJson timestamp).compact
  else if e.isError || s.verbose then some e.format
  else none

/-- The line written for `e`, stamped with `timestamp`, if any. -/
def line? (s : Sink) (timestamp : String) (e : LogEvent) : Option String :=
  s.service.logEvent (s.write timestamp) e

/-- `e` as logged while the file `path`, number `id`, is processed. -/
def inFile (s : Sink) (path : String) (id : Nat) (e : LogEvent) : LogEvent :=
  if s.fileContext then e.withFields [("file", path), ("file_id", toString id)] else e

end Sink

end COutline
