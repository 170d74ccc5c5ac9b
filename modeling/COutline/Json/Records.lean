import COutline.Json.Basic
import COutline.Lexer.Metrics
import COutline.Analysis.Diagnostic
import COutline.Outline.Basic
import COutline.Log.Event

/-!
# JSON records of the domain types

The JSON shapes in which positions, spans and lexing metrics are written: records list their
fields in declaration order, and a map of counts by kind lists its kinds in kind order under
their upper-case names.
-/

namespace COutline

/-- `{"offset", "line", "column"}`. -/
def Position.toJson (p : Position) : Json :=
  .obj [("offset", .nat p.offset), ("line", .nat p.line), ("column", .nat p.column)]

/-- `{"start", "end"}`. -/
def Span.toJson (s : Span) : Json :=
  .obj [("start", s.start.toJson), ("end", s.stop.toJson)]

/-- `{"file", "line", "column"}`. -/
def Location.toJson (l : Location) : Json :=
  .obj [("file", .str l.file), ("line", .nat l.line), ("column", .nat l.column)]

/-- `{"kind", "text", "location", "span"}`. -/
def Token.toJson (t : Token) : Json :=
  .obj [("kind", .str t.kind.name), ("text", .str t.text), ("location", t.location.toJson),
    ("span", t.span.toJson)]

/-- All counters, the per-kind counts as an object in kind order. -/
def LexMetrics.toJson (m : LexMetrics) : Json :=
  .obj [("total_tokens", .nat m.totalTokens),
    ("tokens_by_kind", .obj (m.tokensByKind.entries.map fun (k, n) => (k.name, .nat n))),
    ("comment_count", .nat m.commentCount),
    ("line_count", .nat m.lineCount),
    ("skipped_chars", .nat m.skippedChars),
    ("max_identifier_length", .nat m.maxIdentifierLength),
    ("max_string_length", .nat m.maxStringLength),
    ("max_comment_length", .nat m.maxCommentLength)]

end COutline

namespace COutline

/-- The fields of a record, leaving out those whose value is absent. -/
def Json.record (fields : List (String × Option Json)) : Json :=
  .obj (fields.filterMap fun (k, v) => v.map (k, ·))

/-- `{"data_type", "name"}`. -/
def Parameter.toJson (p : Parameter) : Json :=
  .obj [("data_type", .str p.dataType), ("name", .str p.name)]

mutual
/-- `{"children", "terminated", "span"?}`. -/
def Block.toJson : Block → Json
  | ⟨cs, t, s⟩ => .record [("children", some (.arr (Block.listToJson cs))),
    ("terminated", some (.bool t)), ("span", s.map Span.toJson)]

/-- The records of a list of blocks. -/
def Block.listToJson : List Block → List Json
  | [] => []
  | b :: bs => b.toJson :: Block.listToJson bs
end

/-- `{"name", "parameters", "return_type", "span"?}`. -/
def FunctionHeader.toJson (h : FunctionHeader) : Json :=
  .record [("name", some (.str h.name)), ("parameters", some (.arr (h.parameters.map (·.toJson)))),
    ("return_type", some (.str h.returnType)), ("span", h.span.map Span.toJson)]

/-- `{"header", "body"}`. -/
def FunctionDefinition.toJson (d : FunctionDefinition) : Json :=
  .obj [("header", d.header.toJson), ("body", d.body.toJson)]

/-- `{"functions_by_name": {name: definition, …}}`, names in order. -/
def Program.toJson (p : Program) : Json :=
  .obj [("functions_by_name", .obj (p.functions.entries.map fun (k, d) => (k, d.toJson)))]

/-- `{"code", "message", "location", "span"}`. -/
def Diagnostic.toJson (d : Diagnostic) : Json :=
  .obj [("code", .str d.code), ("message", .str d.message), ("location", d.location.toJson),
    ("span", d.span.toJson)]

/-- The three groups of preferences, each field under its own name. -/
def RuntimeConfig.toJson (c : RuntimeConfig) : Json :=
  .obj [("lexical", .obj [
      ("collect_detailed_metrics", .bool c.lexical.collectDetailedMetrics),
      ("count_comments_towards_limit", .bool c.lexical.countCommentsTowardsLimit),
      ("include_position_in_errors", .bool c.lexical.includePositionInErrors)]),
    ("analyzer", .obj [
      ("strict_mode", .bool c.analyzer.strictMode),
      ("reject_duplicate_functions", .bool c.analyzer.rejectDuplicateFunctions),
      ("max_block_depth", .nat c.analyzer.maxBlockDepth),
      ("log_recognized_functions", .bool c.analyzer.logRecognizedFunctions)]),
    ("logging", .obj [
      ("use_structured_logging", .bool c.logging.useStructuredLogging),
      ("enable_console_logging", .bool c.logging.enableConsoleLogging),
      ("min_log_level", .str c.logging.minLogLevel.word),
      ("enable_cargo_style_output", .bool c.logging.enableCargoStyleOutput),
      ("include_file_context", .bool c.logging.includeFileContext)])]

/-- `{"collect_detailed_metrics", "count_comments_towards_limit", "include_position_in_errors"}`. -/
def LexicalPreferences.toJson (p : LexicalPreferences) : Json :=
  .obj [("collect_detailed_metrics", .bool p.collectDetailedMetrics),
    ("count_comments_towards_limit", .bool p.countCommentsTowardsLimit),
    ("include_position_in_errors", .bool p.includePositionInErrors)]

/-- A structured log line: `{"timestamp", "level", "code", "message", "span"?, "context"?}`,
    the time given as text. -/
def LogEvent.toJson (e : LogEvent) (timestamp : String) : Json :=
  .record [("timestamp", some (.str timestamp)), ("level", some (.str e.level.label)),
    ("code", some (.str e.code)), ("message", some (.str e.message)),
    ("span", e.span.map Span.toJson),
    ("context", if e.context.isEmpty then none
      else some (.obj (e.context.entries.map fun (k, v) => (k, .str v))))]

end COutline
