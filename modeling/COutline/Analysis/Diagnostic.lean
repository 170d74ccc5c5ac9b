import COutline.Token.Basic

/-!
# Findings and failures of the analysis

A `Diagnostic` is a finding that does not stop the analysis; its code starts with `E` for an
error and with anything else for a warning.  A `SyntaxError` stops the analysis of a
compilation unit: a block never closed (strict mode only), nesting past the depth limit, or a
second definition of a name under the reject policy.
-/

namespace COutline

/-- How the analyser treats input it cannot recognize. -/
inductive AnalysisMode where
  /-- Skip unrecognized constructs silently and accept blocks that are never closed. -/
  | lenient
  /-- Report every skipped construct and fail on blocks that are never closed. -/
  | strict
deriving Repr, DecidableEq, Inhabited

namespace AnalysisMode

/-- `strict` for `true`, `lenient` for `false`. -/
def ofStrictFlag (b : Bool) : AnalysisMode := if b then .strict else .lenient

/-- Whether the mode is strict. -/
def isStrict : AnalysisMode → Bool
  | .strict => true
  | .lenient => false

/-- `lenient` or `strict`, as the mode is named in preference files. -/
def word : AnalysisMode → String
  | .lenient => "lenient"
  | .strict => "strict"

/-- Both modes, lenient first. -/
def all : List AnalysisMode := [.lenient, .strict]

/-- The mode named `s`, if any. -/
def ofWord? (s : String) : Option AnalysisMode := all.find? (·.word == s)

/-- `Lenient` or `Strict`, as the mode is named in log context. -/
def title : AnalysisMode → String
  | .lenient => "Lenient"
  | .strict => "Strict"

end AnalysisMode

/-- A reported finding. -/
structure Diagnostic where
  code : String
  message : String
  location : Location
  span : Span
deriving Repr, DecidableEq, Inhabited

namespace Diagnostic

/-- Whether the finding is an error: its code starts with `E`. -/
def isError (d : Diagnostic) : Bool := d.code.startsWith "E"

/-- `error[CODE]: message at file:line:column`, or `warning[…]` for a warning. -/
def render (d : Diagnostic) : String :=
  (if d.isError then "error" else "warning") ++ "[" ++ d.code ++ "]: " ++ d.message ++ " at " ++
    d.location.render

end Diagnostic

/-- Why the analysis of a compilation unit stopped. -/
inductive SyntaxError where
  /-- A block opened by `delimiter` at `span` reached the end of input (strict mode). -/
  | unmatchedBlockDelimiter (delimiter : String) (span : Span)
  /-- A brace at `span` opened a block nested deeper than `maxDepth`. -/
  | maxBlockDepth (maxDepth : Nat) (span : Span)
  /-- A second definition of `name`, spanning `span`, was refused. -/
  | duplicateFunction (name : String) (span : Span)
deriving Repr, DecidableEq, Inhabited

namespace SyntaxError

/-- The diagnostic code. -/
def code : SyntaxError → String
  | unmatchedBlockDelimiter .. => "E041"
  | maxBlockDepth .. => "E044"
  | duplicateFunction .. => "E042"

/-- The span the failure points at. -/
def span : SyntaxError → Span
  | unmatchedBlockDelimiter _ s | maxBlockDepth _ s | duplicateFunction _ s => s

/-- The message shown for the failure. -/
def message : SyntaxError → String
  | unmatchedBlockDelimiter d s =>
    "Unmatched block delimiter: '" ++ d ++ "' opened at " ++ s.render ++ " is never closed"
  | maxBlockDepth m s => "Maximum block depth " ++ toString m ++ " exceeded at " ++ s.render
  | duplicateFunction n s => "Duplicate function '" ++ n ++ "' at " ++ s.render

end SyntaxError

end COutline
