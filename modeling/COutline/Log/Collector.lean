import COutline.Config.Limits
import COutline.Log.Event
import COutline.Report.Code
import COutline.Source.Path

/-!
# The per-file collector of errors and warnings

The collector keeps the errors and warnings logged while a file is processed, grouped by file
path, for a summary at the end; events of other levels are not kept.  It keeps at most
`maxLogEventsPerFile` events of one file and `logBufferSize` over all files; past either limit
an event is only counted as dropped.

The summary lists the files in path order: `Checking PATH...`, the file's errors (each with
severity, category, context and the recommended action), then its warnings (with context),
a note on dropped events and a blank line; then the totals of errors and warnings shown.
-/

namespace COutline

/-- What the collector holds for one file. -/
structure FileEvents where
  /-- The path as first recorded. -/
  path : String
  /-- The kept events, in the order recorded. -/
  events : List LogEvent := []
  /-- How many events were counted but not kept. -/
  dropped : Nat := 0
deriving Repr, Inhabited

/-- Errors and warnings grouped by file. -/
structure Collector where
  files : SortedMap SourcePath FileEvents := .empty
  /-- Events kept over all files. -/
  kept : Nat := 0
deriving Repr, Inhabited

namespace Collector

/-- Record `e` under `path`: kept when it is an error or warning and neither limit is reached,
    counted as dropped when a limit is reached, ignored otherwise. -/
def record (c : Collector) (path : String) (e : LogEvent) : Collector :=
  if e.isError || e.isWarning then
    let key := SourcePath.mk path
    let entry := (c.files.get? key).getD { path }
    if entry.events.length < Limits.standard.maxLogEventsPerFile &&
        c.kept < Limits.standard.logBufferSize then
      { files := c.files.insert key { entry with events := entry.events ++ [e] }
        kept := c.kept + 1 }
    else { c with files := c.files.insert key { entry with dropped := entry.dropped + 1 } }
  else c

/-- The context lines of an event, without the file tags. -/
def contextLines (e : LogEvent) : String :=
  e.context.entries.foldl (fun acc (k, v) =>
    if k = "file" ∨ k = "file_id" then acc else acc ++ "  = " ++ k ++ ": " ++ v ++ "\n") ""

/-- `label[CODE]: message`, with ` --> path:line:column` when the event has a span. -/
def headline (label path : String) (e : LogEvent) : String :=
  label ++ "[" ++ e.code ++ "]: " ++ e.message ++
    (match e.span with
     | some s => " --> " ++ path ++ ":" ++ s.start.render
     | none => "") ++ "\n"

/-- The lines of one error. -/
def errorLines (path : String) (e : LogEvent) : String :=
  let info := CodeInfo.of e.code
  headline "error" path e ++ "  = severity: " ++ info.severity.name ++ ", category: " ++
    info.category ++ "\n" ++ contextLines e ++
    (if info.action = CodeInfo.noAction then "" else "  = help: " ++ info.action ++ "\n")

/-- The block of one file. -/
def fileBlock (f : FileEvents) : String :=
  let errors := f.events.filter LogEvent.isError
  let warnings := f.events.filter LogEvent.isWarning
  "Checking " ++ f.path ++ "...\n" ++
    String.join (errors.map (errorLines f.path)) ++
    String.join (warnings.map fun e => headline "warning" f.path e ++ contextLines e) ++
    (if f.dropped > 0 then "  = note: " ++ toString f.dropped ++ " more events not shown\n"
     else "") ++ "\n"

/-- The summary of everything collected; empty when nothing was. -/
def summary (c : Collector) : String :=
  let shown := c.files.values.filter fun f => !f.events.isEmpty || f.dropped > 0
  let errors := (shown.map fun f => (f.events.filter LogEvent.isError).length).foldl (· + ·) (0 : Nat)
  let warnings := (shown.map fun f => (f.events.filter LogEvent.isWarning).length).foldl (· + ·) (0 : Nat)
  String.join (shown.map fileBlock) ++
    (if errors > 0 then "Total errors: " ++ toString errors ++ "\n" else "") ++
    (if warnings > 0 then "Total warnings: " ++ toString warnings ++ "\n" else "")

end Collector

end COutline
