import COutline.Analysis.Basic
import COutline.Proofs.Analysis.Braces

/-!
# The steps of the top-level scan

At a `dataType` token the scan either reads the body of a signature `TYPE NAME ( ) {` or skips
the construct, with a message at a token, and goes on with the tokens after what it took.
`lead` names that decision, and the equations `scan_pass`, `scan_skip`, `scan_body_error` and
`scan_body_ok` state the scan through it, so that a property of whole runs is proved with one
case per kind of step instead of one per branch of the scan.

The findings lemmas say what each step changes: skipping and logging leave the program alone,
and recording a definition is inserting it under the run's policy.

A scan stops only with one of the stops the analysis raises (`IsHalt`), an error paired with the
event logged where it is raised, and a failed analysis has logged that event last
(`analyzeTokens_error_logged`): for a block never closed, the `E041` that names the line its
brace was read on (`analyzeTokens_unmatched_logged`).
-/

namespace COutline

namespace Analysis

/-- What the scan does at a `dataType` token: read the body of the signature `name ( ) {`, or
    skip the construct with a message at a token and go on with `rest`. -/
inductive Lead where
  | signature (name paren close opener : Token) (inBody : List Token)
  | skip (message : String) (at_ : Token) (rest : List Token)

/-- The decision the scan takes at a `dataType` token `t` followed by `rest`. -/
def lead (t : Token) : List Token → Lead
  | n :: p :: afterParen =>
    if n.kind = .identifier ∧ p.kind = .openingParenthesis then
      match afterParen with
      | c :: afterClose =>
        if c.kind = .closingParenthesis then
          match afterClose with
          | o :: inBody =>
            if o.kind = .openingCurlyBrace then .signature n p c o inBody
            else .skip ("Function '" ++ n.text ++ "' has no body") n afterClose
          | [] => .skip ("Function '" ++ n.text ++ "' has no body") n []
        else .skip ("Parameter list of '" ++ n.text ++ "' is not recognized") n afterParen
      | [] => .skip ("Parameter list of '" ++ n.text ++ "' is not recognized") n []
    else .skip ("Data type '" ++ t.text ++ "' does not start a function definition") t
      (n :: p :: afterParen)
  | rest => .skip ("Data type '" ++ t.text ++ "' does not start a function definition") t rest

/-- The header the scan builds for the signature `t n ( c`. -/
def signatureHeader (t n c : Token) : FunctionHeader :=
  { name := n.text, returnType := t.text, span := some (t.span.merge c.span) }

/-! ## The scan through `lead` -/

section Equations

variable {r : Run} {f : Findings} {t : Token} {rest : List Token}

@[simp] theorem scan_nil (r : Run) (f : Findings) : scan r f [] = .ok f := by
  rw [scan.eq_def]

theorem scan_pass (ht : t.kind ≠ .dataType) : scan r f (t :: rest) = scan r f rest := by
  rw [scan.eq_def]
  simp only [if_pos ht]

theorem scan_skip {message : String} {at_ : Token} {rest' : List Token}
    (ht : t.kind = .dataType) (h : lead t rest = .skip message at_ rest') :
    scan r f (t :: rest) = scan r (skipped r f message at_) rest' := by
  have hdt : ¬ t.kind ≠ .dataType := fun hne => hne ht
  rw [scan.eq_def]
  simp only [if_neg hdt]
  -- the shapes of `rest` follow the matches of the scan, one skip message each
  rcases rest with _ | ⟨n, _ | ⟨p, afterParen⟩⟩
  · simp only [lead, Lead.skip.injEq] at h
    obtain ⟨rfl, rfl, rfl⟩ := h
    rfl
  · simp only [lead, Lead.skip.injEq] at h
    obtain ⟨rfl, rfl, rfl⟩ := h
    rfl
  by_cases hnp : n.kind = .identifier ∧ p.kind = .openingParenthesis
  case neg =>
    simp only [lead, if_neg hnp, Lead.skip.injEq] at h ⊢
    obtain ⟨rfl, rfl, rfl⟩ := h
    rfl
  rcases afterParen with _ | ⟨c, afterClose⟩
  · simp only [lead, if_pos hnp, Lead.skip.injEq] at h ⊢
    obtain ⟨rfl, rfl, rfl⟩ := h
    rfl
  by_cases hc : c.kind = .closingParenthesis
  case neg =>
    simp only [lead, if_pos hnp, if_neg hc, Lead.skip.injEq] at h ⊢
    obtain ⟨rfl, rfl, rfl⟩ := h
    rfl
  rcases afterClose with _ | ⟨o, inBody⟩
  · simp only [lead, if_pos hnp, if_pos hc, Lead.skip.injEq] at h ⊢
    obtain ⟨rfl, rfl, rfl⟩ := h
    rfl
  by_cases ho : o.kind = .openingCurlyBrace
  · simp only [lead, if_pos hnp, if_pos hc, if_pos ho, reduceCtorEq] at h
  · simp only [lead, if_pos hnp, if_pos hc, if_neg ho, Lead.skip.injEq] at h ⊢
    obtain ⟨rfl, rfl, rfl⟩ := h
    rfl

/-- The signature the scan reads a body after. -/
theorem lead_eq_signature_iff {n p c o : Token} {inBody : List Token} :
    lead t rest = .signature n p c o inBody ↔ rest = n :: p :: c :: o :: inBody ∧
      n.kind = .identifier ∧ p.kind = .openingParenthesis ∧ c.kind = .closingParenthesis ∧
        o.kind = .openingCurlyBrace := by
  constructor
  · intro h
    unfold lead at h
    split at h
    next n' p' afterParen =>
      split at h
      next hnp =>
        split at h
        next c' afterClose =>
          split at h
          next hc =>
            split at h
            next o' inBody' =>
              split at h
              next ho =>
                simp only [Lead.signature.injEq] at h
                obtain ⟨rfl, rfl, rfl, rfl, rfl⟩ := h
                exact ⟨rfl, hnp.1, hnp.2, hc, ho⟩
              next => cases h
            next => cases h
          next => cases h
        next => cases h
      next => cases h
    next => cases h
  · rintro ⟨rfl, hn, hp, hc, ho⟩
    simp only [lead, if_pos (And.intro hn hp), if_pos hc, if_pos ho]

/-- A skipped construct takes only tokens that are no `dataType`, before the rest. -/
theorem lead_eq_skip {message : String} {at_ : Token} {rest' : List Token}
    (h : lead t rest = .skip message at_ rest') :
    ∃ pre, rest = pre ++ rest' ∧ ∀ x ∈ pre, x.kind ≠ .dataType := by
  unfold lead at h
  -- each way of giving up takes the name, the parenthesis and the closing parenthesis at most
  split at h
  next n p afterParen =>
    split at h
    next hnp =>
      have hn : n.kind ≠ .dataType := by rw [hnp.1]; decide
      have hp : p.kind ≠ .dataType := by rw [hnp.2]; decide
      split at h
      next c afterClose =>
        split at h
        next hc =>
          have hc' : c.kind ≠ .dataType := by rw [hc]; decide
          split at h
          next o inBody =>
            split at h
            next => cases h
            next =>
              simp only [Lead.skip.injEq] at h
              obtain ⟨-, -, rfl⟩ := h
              exact ⟨[n, p, c], rfl, by simp [hn, hp, hc']⟩
          next =>
            simp only [Lead.skip.injEq] at h
            obtain ⟨-, -, rfl⟩ := h
            exact ⟨[n, p, c], rfl, by simp [hn, hp, hc']⟩
        next =>
          simp only [Lead.skip.injEq] at h
          obtain ⟨-, -, rfl⟩ := h
          exact ⟨[n, p], rfl, by simp [hn, hp]⟩
      next =>
        simp only [Lead.skip.injEq] at h
        obtain ⟨-, -, rfl⟩ := h
        exact ⟨[n, p], rfl, by simp [hn, hp]⟩
    next =>
      simp only [Lead.skip.injEq] at h
      obtain ⟨-, -, rfl⟩ := h
      exact ⟨[], rfl, by simp⟩
  next =>
    simp only [Lead.skip.injEq] at h
    obtain ⟨-, -, rfl⟩ := h
    exact ⟨[], rfl, by simp⟩

theorem lead_skip_length {message : String} {at_ : Token} {rest' : List Token}
    (h : lead t rest = .skip message at_ rest') : rest'.length ≤ rest.length := by
  obtain ⟨pre, rfl, -⟩ := lead_eq_skip h
  simp

theorem scan_body_error {n p c o : Token} {inBody : List Token} {e : SyntaxError × LogEvent}
    (ht : t.kind = .dataType) (h : lead t rest = .signature n p c o inBody)
    (hb : Body.enter r.settings.mode.isStrict r.settings.maxDepth r.finish 0 o inBody = .error e) :
    scan r f (t :: rest) = .error (f.halt e) := by
  obtain ⟨rfl, hn, hp, hc, ho⟩ := lead_eq_signature_iff.1 h
  have hdt : ¬ t.kind ≠ .dataType := fun hne => hne ht
  rw [scan.eq_def]
  simp only [if_neg hdt, if_pos (And.intro hn hp), if_pos hc, if_pos ho, hb]

theorem scan_body_ok {n p c o : Token} {inBody : List Token} {body : Body inBody}
    (ht : t.kind = .dataType) (h : lead t rest = .signature n p c o inBody)
    (hb : Body.enter r.settings.mode.isStrict r.settings.maxDepth r.finish 0 o inBody = .ok body) :
    scan r f (t :: rest) =
      (record r ((body.unclosed.foldl (fun f o => f.note (unclosedEvent o)) f).note
          (recognizedEvent r t (signatureHeader t n c))) ⟨signatureHeader t n c, body.block⟩).bind
        fun f => scan r f body.rest.1 := by
  obtain ⟨rfl, hn, hp, hc, ho⟩ := lead_eq_signature_iff.1 h
  have hdt : ¬ t.kind ≠ .dataType := fun hne => hne ht
  rw [scan.eq_def]
  simp only [if_neg hdt, if_pos (And.intro hn hp), if_pos hc, if_pos ho, hb, signatureHeader]
  split
  · next heq => rw [heq]; rfl
  · next heq => rw [heq]; rfl

theorem bind_eq_ok {ε α β : Type} {x : Except ε α} {k : α → Except ε β} {b : β}
    (h : x.bind k = .ok b) : ∃ a, x = .ok a ∧ k a = .ok b := by
  cases x with
  | error e => cases h
  | ok a => exact ⟨a, rfl, h⟩

end Equations

/-! ## What each step changes -/

section Findings

variable {r : Run} {f : Findings}

@[simp] theorem note_program (e : LogEvent) : (f.note e).program = f.program := rfl

@[simp] theorem report_program (d : Diagnostic) : (f.report d).program = f.program := by
  unfold Findings.report
  split <;> rfl

@[simp] theorem skipped_program (message : String) (at_ : Token) :
    (skipped r f message at_).program = f.program := by
  unfold skipped
  split <;> simp

/-- The events for braces left open only add to the log. -/
theorem foldl_unclosed_eq (os : List Token) :
    ∃ log, os.foldl (fun f o => f.note (unclosedEvent o)) f = { f with log := log } := by
  induction os generalizing f with
  | nil => exact ⟨f.log, rfl⟩
  | cons o os ih => exact ih

@[simp] theorem foldl_unclosed_program (os : List Token) :
    (os.foldl (fun f o => f.note (unclosedEvent o)) f).program = f.program := by
  obtain ⟨log, hlog⟩ := foldl_unclosed_eq (f := f) os
  rw [hlog]

/-- A recorded definition is inserted under the run's policy, which did not refuse it. -/
theorem record_ok {d : FunctionDefinition} {g : Findings} (h : record r f d = .ok g) :
    ∃ outcome, f.program.insert d r.settings.policy = (outcome, g.program) ∧
      ∀ d', outcome ≠ .rejected d' := by
  unfold record at h
  split at h
  · next p hins =>
    cases h
    exact ⟨_, hins, fun _ h => by cases h⟩
  · next previous p hins =>
    refine ⟨.replaced previous, ?_, fun _ h => by cases h⟩
    split at h <;> cases h <;> simpa using hins
  · cases h

/-- Recording fails exactly when the policy refuses the definition, and then only logs the
    refusal. -/
theorem record_error {d : FunctionDefinition} {e : SyntaxError} {g : Findings}
    (h : record r f d = .error (e, g)) :
    ∃ p, f.program.insert d r.settings.policy = (.rejected d, p) ∧
      (e, g) = f.halt (duplicateHalt d.name (d.span?.getD Span.dummy)) := by
  unfold record at h
  split at h
  · cases h
  · split at h <;> cases h
  · next refused p hins =>
    cases h
    -- the definition refused is the one offered
    have hd : refused = d := by
      unfold Program.insert Program.insertAs at hins
      split at hins <;> simp_all
    subst hd
    exact ⟨p, hins, rfl⟩

/-- Whether recording fails, with which error, and the program it leaves do not depend on the
    mode. -/
theorem record_modes {r₁ r₂ : Run} {f₁ f₂ : Findings} {d : FunctionDefinition}
    (hpol : r₁.settings.policy = r₂.settings.policy) (hprog : f₁.program = f₂.program) :
    (∀ e g₁, record r₁ f₁ d = .error (e, g₁) → ∃ g₂, record r₂ f₂ d = .error (e, g₂)) ∧
    (∀ g₁, record r₁ f₁ d = .ok g₁ → ∃ g₂, record r₂ f₂ d = .ok g₂ ∧ g₂.program = g₁.program) := by
  constructor
  · intro e g₁ h
    obtain ⟨p, hins, heg⟩ := record_error h
    simp only [Findings.halt, Prod.mk.injEq] at heg
    rw [hprog, hpol] at hins
    refine ⟨f₂.note (duplicateHalt d.name (d.span?.getD Span.dummy)).2, ?_⟩
    unfold record
    rw [hins, heg.1]
    rfl
  · intro g₁ h
    obtain ⟨outcome, hins, hne⟩ := record_ok h
    rw [hprog, hpol] at hins
    unfold record
    rw [hins]
    cases outcome with
    | inserted => exact ⟨_, rfl, rfl⟩
    | replaced previous =>
      dsimp only
      split <;> exact ⟨_, rfl, by simp⟩
    | rejected refused => exact absurd rfl (hne refused)

end Findings

/-! ## The event of a stop -/

/-- The stops the analysis raises, each an error with the event logged where it is raised: a
    block never closed (`E041`, naming the line its brace was read on), a brace past the depth
    limit (`E044`), a refused name (`E042`). -/
inductive IsHalt : SyntaxError × LogEvent → Prop
  | unclosed (opener : Token) : IsHalt (unclosedHalt opener)
  | tooDeep (maxDepth depth : Nat) (brace : Token) : IsHalt (tooDeepHalt maxDepth depth brace)
  | duplicate (name : String) (span : Span) : IsHalt (duplicateHalt name span)

/-- The event of a stop at an unmatched delimiter is the `E041` of a brace with that text and
    span, naming the line the brace was read on. -/
theorem IsHalt.unmatched {h : SyntaxError × LogEvent} (hh : IsHalt h) {d : String} {sp : Span}
    (he : h.1 = .unmatchedBlockDelimiter d sp) :
    ∃ o : Token, o.text = d ∧ o.span = sp ∧
      h.2 = (LogEvent.error "E041"
        ("Block opened at line " ++ toString o.location.line ++ " is never closed")).withSpan
          sp := by
  cases hh with
  | unclosed o =>
    simp only [unclosedHalt, SyntaxError.unmatchedBlockDelimiter.injEq] at he
    obtain ⟨rfl, rfl⟩ := he
    exact ⟨o, rfl, rfl, rfl⟩
  | tooDeep => cases he
  | duplicate => cases he

section Halts

variable {strict : Bool} {m : Nat} {fin : Span}

/-- Reading a block stops only at a brace never closed or at one too deep. -/
theorem items_halt {d : Nat} {o : Token} {ch : Array Block} {u ts : List Token}
    {h : SyntaxError × LogEvent} (hb : Body.items strict m fin d o ch u ts = .error h) :
    IsHalt h := by
  fun_induction Body.items strict m fin d o ch u ts with
  | case1 d o ch u ts hnil hstrict =>
    cases hb
    exact .unclosed o
  | case2 => cases hb
  | case3 => cases hb
  | case4 d o ch u ts t rest hcons hclose hdepth =>
    cases hb
    exact .tooDeep m (d + 1) t
  | case5 d o ch u ts t rest hcons hclose hdepth e hc ihc =>
    cases hb
    exact ihc hc
  | case6 d o ch u ts t rest hcons hclose hdepth child hc e he ihc ihb =>
    cases hb
    exact ihb he
  | case7 => cases hb

theorem enter_halt {d : Nat} {o : Token} {ts : List Token} {h : SyntaxError × LogEvent}
    (hb : Body.enter strict m fin d o ts = .error h) : IsHalt h := by
  unfold Body.enter at hb
  split at hb
  · cases hb
    exact .tooDeep m d o
  · exact items_halt hb

end Halts

/-- A scan that stops does so with a raised stop, its event logged last. -/
theorem scan_halt {r : Run} {f : Findings} {ts : List Token} {e : SyntaxError} {g : Findings}
    (hs : scan r f ts = .error (e, g)) :
    ∃ h, ∃ f' : Findings, IsHalt h ∧ (e, g) = f'.halt h := by
  cases ts with
  | nil =>
    rw [scan_nil] at hs
    cases hs
  | cons t rest =>
    by_cases ht : t.kind = .dataType
    case neg =>
      rw [scan_pass ht] at hs
      exact scan_halt hs
    cases hl : lead t rest with
    | skip message at_ rest' =>
      have hlen := lead_skip_length hl
      rw [scan_skip ht hl] at hs
      exact scan_halt hs
    | signature n p c o inBody =>
      have hlen : inBody.length < rest.length := by
        obtain ⟨rfl, -⟩ := lead_eq_signature_iff.1 hl
        simp only [List.length_cons]
        omega
      cases hb : Body.enter r.settings.mode.isStrict r.settings.maxDepth r.finish 0 o inBody with
      | error h =>
        rw [scan_body_error ht hl hb] at hs
        exact ⟨h, f, enter_halt hb, (Except.error.inj hs).symm⟩
      | ok body =>
        have hshort := body.rest.2
        rw [scan_body_ok ht hl hb] at hs
        -- the stop comes from recording the definition, or from the scan after its body
        cases hrec : record r _ ⟨signatureHeader t n c, body.block⟩ with
        | error eg =>
          rw [hrec] at hs
          cases hs
          obtain ⟨-, -, heg⟩ := record_error hrec
          exact ⟨_, _, .duplicate _ _, heg⟩
        | ok f' =>
          rw [hrec] at hs
          exact scan_halt hs
termination_by ts.length
decreasing_by
  all_goals subst_vars
  all_goals simp only [List.length_cons]
  all_goals omega

/-! ## The analysis as a scan -/

/-- The result of an analysis is that of the scan of all its tokens from findings with no
    program yet, nothing dropped, no diagnostic but the one for an empty sequence and, in lenient
    mode, no diagnostics at all. -/
theorem analyzeTokens_result (s : AnalysisSettings) (ts : List Token) :
    ∃ file f, f.program = {} ∧ f.dropped = 0 ∧ (∀ d ∈ f.diagnostics.toList, d.code = "E040") ∧
      (s.mode.isStrict = false → f.diagnostics = #[] ∧ f.dropped = 0) ∧
      (∀ g, scan ⟨s, file, endSpanOf ts⟩ f ts = .ok g →
        (analyzeTokens s ts).result = .ok ⟨g.program, g.diagnostics.toList, g.dropped⟩) ∧
      (∀ e g, scan ⟨s, file, endSpanOf ts⟩ f ts = .error (e, g) →
        (analyzeTokens s ts).result = .error e) := by
  unfold analyzeTokens
  dsimp only
  refine ⟨_, _, ?_, ?_, ?_, ?_, fun g hg => by rw [hg], fun e g hg => by rw [hg]⟩
  · -- an empty stream only adds findings
    split
    · split <;> simp
    · rfl
  · -- the one report of an empty stream is kept
    split
    · split <;> simp [Findings.report, Findings.note, Limits.standard]
    · rfl
  · split
    · split
      · simp [Findings.report, Findings.note, Limits.standard]
      · simp [Findings.note]
    · simp
  · intro hl
    split
    · rw [if_neg (by simp [hl])]
      exact ⟨rfl, rfl⟩
    · exact ⟨rfl, rfl⟩

/-- A successful analysis is a successful scan of all the tokens from findings with no program
    yet. -/
theorem analyzeTokens_ok {s : AnalysisSettings} {ts : List Token} {res : AnalysisResult}
    (h : (analyzeTokens s ts).result = .ok res) :
    ∃ file f g, f.program = {} ∧ scan ⟨s, file, endSpanOf ts⟩ f ts = .ok g ∧
      res = ⟨g.program, g.diagnostics.toList, g.dropped⟩ := by
  obtain ⟨file, f, hempty, -, -, -, hok, herr⟩ := analyzeTokens_result s ts
  cases hscan : scan ⟨s, file, endSpanOf ts⟩ f ts with
  | error eg =>
    rw [herr eg.1 eg.2 hscan] at h
    cases h
  | ok g =>
    rw [hok g hscan] at h
    cases h
    exact ⟨file, f, g, hempty, hscan, rfl⟩

/-- An analysis that fails has logged, last, the event raised with its error. -/
theorem analyzeTokens_error_logged {s : AnalysisSettings} {ts : List Token} {e : SyntaxError}
    (h : (analyzeTokens s ts).result = .error e) :
    ∃ halt, IsHalt halt ∧ halt.1 = e ∧ (analyzeTokens s ts).log.getLast? = some halt.2 := by
  unfold analyzeTokens at h ⊢
  dsimp only at h ⊢
  generalize hs : scan _ _ ts = res at h ⊢
  rcases res with ⟨e', g⟩ | g
  · -- the analysis reports the scan's error and log
    cases h
    obtain ⟨halt, f', hhalt, heq⟩ := scan_halt hs
    simp only [Findings.halt, Prod.mk.injEq] at heq
    obtain ⟨rfl, rfl⟩ := heq
    exact ⟨halt, hhalt, rfl, by simp [Findings.note]⟩
  · cases h

/-- An analysis that stops at a block never closed logs, last, the `E041` that names the line
    the block's brace was read on. -/
theorem analyzeTokens_unmatched_logged {s : AnalysisSettings} {ts : List Token} {d : String}
    {sp : Span} (h : (analyzeTokens s ts).result = .error (.unmatchedBlockDelimiter d sp)) :
    ∃ o : Token, o.text = d ∧ o.span = sp ∧ (analyzeTokens s ts).log.getLast? =
      some ((LogEvent.error "E041"
        ("Block opened at line " ++ toString o.location.line ++ " is never closed")).withSpan
          sp) := by
  obtain ⟨halt, hhalt, he, hlast⟩ := analyzeTokens_error_logged h
  obtain ⟨o, hd, hsp, hev⟩ := hhalt.unmatched he
  exact ⟨o, hd, hsp, by rw [hlast, hev]⟩

end Analysis

end COutline
