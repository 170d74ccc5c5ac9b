import COutline.Analysis.Body
import COutline.Config.Preferences
import COutline.Token.Stream

/-!
# The outline analysis

The analysis scans a token sequence once, left to right.  At a `dataType` token it tries
`TYPE NAME ( ) { … }`: the type is always taken; when `NAME (` does not follow, or `)`, or a
body, the attempt is a skipped construct and the scan goes on right after what was taken.  A
recognized definition enters the program under the duplicate policy.  Every other token is
passed over.

Findings: in strict mode each skipped construct is a `W040` diagnostic, each replaced
definition a `W042`, and an empty sequence an `E040`; at most `Limits.standard.maxDiagnostics`
are kept, the rest only counted.  Lenient mode reports nothing.  The events the analysis logs
are collected beside the result, in order; an error is logged where it is raised.
-/

namespace COutline

/-- How an analysis run behaves. -/
structure AnalysisSettings where
  mode : AnalysisMode := .lenient
  policy : DuplicatePolicy := .overwrite
  /-- The depth limit, already within `1 … Limits.standard.maxBlockDepth`. -/
  maxDepth : Nat := Limits.standard.maxBlockDepth
  /-- Log each recognized function as a success event (else as a debug event). -/
  logRecognized : Bool := false
deriving Repr, Inhabited

/-- The depth limit clamped to `1 … Limits.standard.maxBlockDepth`. -/
def AnalysisSettings.clampDepth (d : Nat) : Nat := min (max d 1) Limits.standard.maxBlockDepth

/-- The settings the preferences ask for. -/
def AnalysisSettings.ofPreferences (p : AnalyzerPreferences) : AnalysisSettings where
  mode := .ofStrictFlag p.strictMode
  policy := if p.rejectDuplicateFunctions then .reject else .overwrite
  maxDepth := p.effectiveMaxBlockDepth
  logRecognized := p.logRecognizedFunctions

/-- What a successful analysis found. -/
structure AnalysisResult where
  program : Program
  diagnostics : List Diagnostic
  /-- Diagnostics past the limit, counted but not kept. -/
  dropped : Nat
deriving Repr, Inhabited

namespace Analysis

/-- What the scan has gathered so far. -/
structure Findings where
  program : Program := {}
  diagnostics : Array Diagnostic := #[]
  dropped : Nat := 0
  log : Array LogEvent := #[]
deriving Inhabited

/-- Fixed facts of one run: the settings, the file findings are located in, and the empty span
    after the last token. -/
structure Run where
  settings : AnalysisSettings
  file : String
  finish : Span

namespace Findings

/-- Log an event. -/
def note (f : Findings) (e : LogEvent) : Findings := { f with log := f.log.push e }

/-- Stop with the error of `h`, its event logged. -/
def halt (f : Findings) (h : SyntaxError × LogEvent) : SyntaxError × Findings := (h.1, f.note h.2)

/-- Keep a diagnostic, or only count it once the limit is reached. -/
def report (f : Findings) (d : Diagnostic) : Findings :=
  if f.diagnostics.size ≥ Limits.standard.maxDiagnostics then { f with dropped := f.dropped + 1 }
  else { f with diagnostics := f.diagnostics.push d }

end Findings

/-- A construct was skipped: a `W040` at the token in strict mode, a debug event otherwise. -/
def skipped (r : Run) (f : Findings) (message : String) (at_ : Token) : Findings :=
  if r.settings.mode.isStrict then f.report ⟨"W040", message, at_.location, at_.span⟩
  else f.note ((LogEvent.debug "Skipped construct").withFields [("reason", message)])

/-- The warning for a block that reached the end of input in lenient mode. -/
def unclosedEvent (opener : Token) : LogEvent :=
  (LogEvent.warning "W041" (unclosedMessage opener)).withSpan opener.span

/-- The event of a recognized function. -/
def recognizedEvent (r : Run) (typeToken : Token) (h : FunctionHeader) : LogEvent :=
  if r.settings.logRecognized then
    (LogEvent.success "I041" "Function recognized").withFields
      [("name", h.name), ("return_type", h.returnType),
       ("line", toString typeToken.location.line)]
  else (LogEvent.debug "Function recognized").withFields [("name", h.name)]

/-- The stop at a definition named `name` that the policy refuses. -/
def duplicateHalt (name : String) (span : Span) : SyntaxError × LogEvent :=
  (.duplicateFunction name span,
    ((LogEvent.error "E042" "Duplicate function definition").withSpan span).withFields
      [("name", name)])

/-- Enter a recognized definition into the program under the run's policy. -/
def record (r : Run) (f : Findings) (d : FunctionDefinition) :
    Except (SyntaxError × Findings) Findings :=
  let span := d.span?.getD Span.dummy
  match f.program.insert d r.settings.policy with
  | (.inserted, p) => .ok { f with program := p }
  | (.replaced previous, p) =>
    let f := { f with program := p }
    let message :=
      "Function '" ++ previous.name ++ "' redefined; the later definition replaces the earlier one"
    if r.settings.mode.isStrict then
      .ok ((f.note ((LogEvent.warning "W042" message).withSpan span)).report
        ⟨"W042", message, Location.ofPosition r.file span.start, span⟩)
    else .ok (f.note ((LogEvent.debug "Function redefined").withFields [("name", previous.name)]))
  | (.rejected refused, _) => .error (f.halt (duplicateHalt refused.name span))

/-- The top-level scan over the tokens `ts` not yet read.  A stop logs the event raised with its
    error and ends the scan with the findings so far. -/
def scan (r : Run) (f : Findings) (ts : List Token) : Except (SyntaxError × Findings) Findings :=
  match ts with
  | [] => .ok f
  | t :: rest =>
    if t.kind ≠ .dataType then scan r f rest
    else
      match _hr : rest with
      | n :: p :: afterParen =>
        if n.kind = .identifier ∧ p.kind = .openingParenthesis then
          match _ha : afterParen with
          | c :: afterClose =>
            if c.kind = .closingParenthesis then
              match _hc : afterClose with
              | o :: inBody =>
                if o.kind = .openingCurlyBrace then
                  match Body.enter r.settings.mode.isStrict r.settings.maxDepth r.finish 0 o inBody with
                  | .error h => .error (f.halt h)
                  | .ok body =>
                    let f := body.unclosed.foldl (fun f o => f.note (unclosedEvent o)) f
                    let header : FunctionHeader :=
                      { name := n.text, returnType := t.text, span := some (t.span.merge c.span) }
                    let f := f.note (recognizedEvent r t header)
                    match record r f ⟨header, body.block⟩ with
                    | .error e => .error e
                    | .ok f => scan r f body.rest.1
                else scan r (skipped r f ("Function '" ++ n.text ++ "' has no body") n) afterClose
              | [] => scan r (skipped r f ("Function '" ++ n.text ++ "' has no body") n) []
            else
              scan r (skipped r f ("Parameter list of '" ++ n.text ++ "' is not recognized") n)
                afterParen
          | [] =>
            scan r (skipped r f ("Parameter list of '" ++ n.text ++ "' is not recognized") n) []
        else
          scan r (skipped r f ("Data type '" ++ t.text ++ "' does not start a function definition") t)
            rest
      | _ =>
        scan r (skipped r f ("Data type '" ++ t.text ++ "' does not start a function definition") t)
          rest
termination_by ts.length
decreasing_by
  all_goals (try have := body.rest.2)
  all_goals (subst_vars; simp_all; try omega)

end Analysis

/-- The outcome of an analysis with the events it logged, in order. -/
structure Analysis where
  result : Except SyntaxError AnalysisResult
  log : List LogEvent

/-- The empty span after the last token, or at the start when there is none. -/
def endSpanOf (ts : List Token) : Span :=
  match ts.getLast? with
  | some t => Span.point t.span.stop
  | none => Span.dummy

/-- Analyse the token sequence `ts` (comments included: they are ordinary tokens here). -/
def analyzeTokens (s : AnalysisSettings) (ts : List Token) : Analysis :=
  let file := match ts with
    | t :: _ => t.location.file
    | [] => "<input>"
  let run : Analysis.Run := ⟨s, file, endSpanOf ts⟩
  let f : Analysis.Findings :=
    { log := #[(LogEvent.debug "Creating grammar analyzer").withFields
      [("tokens", toString ts.length)]] }
  let f :=
    if ts.isEmpty then
      let f := f.note (LogEvent.debug "Token stream is empty; nothing to analyze")
      if s.mode.isStrict then
        f.report ⟨"E040", "No tokens to analyze", Location.ofPosition file run.finish.start,
          run.finish⟩
      else f
    else f
  match Analysis.scan run f ts with
  | .ok f =>
    ⟨.ok ⟨f.program, f.diagnostics.toList, f.dropped⟩,
      f.log.toList ++ [(LogEvent.success "I040" "Grammar analysis completed").withFields
        [("functions", toString f.program.count), ("diagnostics", toString f.diagnostics.size),
         ("mode", s.mode.title)]]⟩
  | .error (e, f) => ⟨.error e, f.log.toList⟩

/-- Analyse a stream with the given preferences: comments are dropped first, from the cursor
    on, and a failure is logged once more as a failed analysis. -/
def analyzeStream (p : AnalyzerPreferences) (s : TokenStream) : Analysis :=
  let significant := s.withoutComments
  let start := (LogEvent.debug "Starting syntax analysis").withFields
    [("tokens", toString significant.length),
     ("comments_dropped", toString (s.remaining - significant.length))]
  let a := analyzeTokens (.ofPreferences p) significant.tokens.toList
  match a.result with
  | .ok _ => ⟨a.result, start :: a.log⟩
  | .error e =>
    ⟨a.result, start :: a.log ++
      [(LogEvent.error e.code "Syntax analysis failed").withFields [("error", e.message)]]⟩

/-- Analyse a stream, comments dropped, with the default lenient settings. -/
def analyzeLenient (s : TokenStream) : Analysis :=
  analyzeTokens {} s.withoutComments.tokens.toList

end COutline
