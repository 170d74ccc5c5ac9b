import COutline.Config.Preferences
import COutline.Json.Basic

/-!
# Preferences from a JSON object

A JSON object in the shape of `RuntimeConfig.toJson` sets the preferences it names: a missing
group or field keeps the value it is laid over, an unknown one is ignored, and a value of the
wrong type is refused with the expected type's name.
-/

namespace COutline

namespace Json

/-- The value of field `k` of an object. -/
def field? (j : Json) (k : String) : Option Json :=
  match j with
  | .obj fs => (fs.find? (·.1 == k)).map (·.2)
  | _ => none

/-- The boolean under `k`, or `d` when absent. -/
def boolAt (j : Json) (k : String) (d : Bool) : Except String Bool :=
  match j.field? k with
  | none => pure d
  | some (.bool b) => pure b
  | some _ => throw ("invalid type for `" ++ k ++ "`, expected a boolean")

/-- The natural number under `k`, or `d` when absent. -/
def natAt (j : Json) (k : String) (d : Nat) : Except String Nat :=
  match j.field? k with
  | none => pure d
  | some (.num n) => if n ≥ 0 then pure n.toNat else throw ("invalid value for `" ++ k ++ "`")
  | some _ => throw ("invalid type for `" ++ k ++ "`, expected usize")

end Json

/-- The level under `k`, by its lower-case word, or `d` when absent. -/
def Level.atJson (j : Json) (k : String) (d : Level) : Except String Level :=
  match j.field? k with
  | none => pure d
  | some (.str s) =>
    match Level.all.find? (·.word == s) with
    | some l => pure l
    | none => throw ("unknown variant `" ++ s ++ "`")
  | some _ => throw ("invalid type for `" ++ k ++ "`, expected a level")

/-- Lay the preferences named in `j` over `base`. -/
def RuntimeConfig.overlayJson (base : RuntimeConfig) (j : Json) : Except String RuntimeConfig := do
  let lx := (j.field? "lexical").getD (.obj [])
  let an := (j.field? "analyzer").getD (.obj [])
  let lg := (j.field? "logging").getD (.obj [])
  let b := base
  pure {
    lexical := {
      collectDetailedMetrics := ← lx.boolAt "collect_detailed_metrics" b.lexical.collectDetailedMetrics
      countCommentsTowardsLimit :=
        ← lx.boolAt "count_comments_towards_limit" b.lexical.countCommentsTowardsLimit
      includePositionInErrors :=
        ← lx.boolAt "include_position_in_errors" b.lexical.includePositionInErrors }
    analyzer := {
      strictMode := ← an.boolAt "strict_mode" b.analyzer.strictMode
      rejectDuplicateFunctions :=
        ← an.boolAt "reject_duplicate_functions" b.analyzer.rejectDuplicateFunctions
      maxBlockDepth := ← an.natAt "max_block_depth" b.analyzer.maxBlockDepth
      logRecognizedFunctions :=
        ← an.boolAt "log_recognized_functions" b.analyzer.logRecognizedFunctions }
    logging := {
      useStructuredLogging := ← lg.boolAt "use_structured_logging" b.logging.useStructuredLogging
      enableConsoleLogging := ← lg.boolAt "enable_console_logging" b.logging.enableConsoleLogging
      minLogLevel := ← Level.atJson lg "min_log_level" b.logging.minLogLevel
      enableCargoStyleOutput :=
        ← lg.boolAt "enable_cargo_style_output" b.logging.enableCargoStyleOutput
      includeFileContext := ← lg.boolAt "include_file_context" b.logging.includeFileContext } }

end COutline
