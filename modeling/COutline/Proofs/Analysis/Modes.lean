import COutline.Proofs.Analysis.Scan
import COutline.Proofs.Outline.Program

/-!
# Strict and lenient analysis

The mode of an analysis decides what is reported and what happens at a block the tokens leave
open: lenient analysis closes it as unterminated, strict analysis fails at the innermost brace
left open.  Everything else runs in step, so the two analyses of the same tokens agree except
there (`analyzeTokens_modes`): lenient analysis reports nothing; strict analysis succeeds
exactly when lenient analysis succeeds with well-formed bodies only, and then finds the same
program; when a lenient body is not well formed, strict analysis fails at the last `{` that no
`}` closes, naming that token's text; and where lenient analysis fails, strict analysis fails
the same way or at an unclosed brace.

The delimiter named is the text of the opening token: `{` for every token the lexer makes, but
whatever text a token of kind `openingCurlyBrace` was built with.
-/

namespace COutline

namespace Analysis

/-- Every body of the program is well formed. -/
def WellFormedBodies (p : Program) : Prop :=
  ∀ name d, p.get? name = some d → d.body.isWellFormed = true

theorem wellFormedBodies_empty : WellFormedBodies {} := fun _ _ h => by cases h

section Insert

variable {p p' : Program} {d : FunctionDefinition} {policy : DuplicatePolicy}
  {outcome : InsertOutcome}

/-- Storing a definition whose body is well formed keeps every body well formed. -/
theorem WellFormedBodies.insert (h : WellFormedBodies p) (hd : d.body.isWellFormed = true)
    (hins : p.insert d policy = (outcome, p')) (hne : ∀ d', outcome ≠ .rejected d') :
    WellFormedBodies p' := by
  intro name d' hget
  have hstore := Program.get?_insert_of_not_rejected p d policy name (by rw [hins]; exact hne)
  rw [hins] at hstore
  rw [hstore] at hget
  split at hget
  · cases hget
    exact hd
  · exact h name d' hget

/-- Storing a definition whose body is not well formed leaves a body that is not. -/
theorem not_wellFormedBodies_insert (hd : d.body.isWellFormed = false)
    (hins : p.insert d policy = (outcome, p')) (hne : ∀ d', outcome ≠ .rejected d') :
    ¬ WellFormedBodies p' := by
  intro h
  have hstore := Program.get?_insert_of_not_rejected p d policy d.name (by rw [hins]; exact hne)
  rw [hins, if_pos rfl] at hstore
  have hwf := h d.name d hstore
  rw [hd] at hwf
  cases hwf

end Insert

/-! ## Lenient runs report nothing -/

section Quiet

variable {r : Run} {f g : Findings}

theorem skipped_of_lenient (hl : r.settings.mode.isStrict = false) (message : String)
    (at_ : Token) :
    skipped r f message at_ =
      f.note ((LogEvent.debug "Skipped construct").withFields [("reason", message)]) := by
  simp [skipped, hl]

theorem record_of_lenient {d : FunctionDefinition} (hl : r.settings.mode.isStrict = false)
    (h : record r f d = .ok g) : g.diagnostics = f.diagnostics ∧ g.dropped = f.dropped := by
  unfold record at h
  split at h
  · cases h
    exact ⟨rfl, rfl⟩
  · simp only [hl, Bool.false_eq_true, if_false] at h
    cases h
    exact ⟨rfl, rfl⟩
  · cases h

/-- A lenient scan keeps the diagnostics and their count as they were. -/
theorem scan_lenient_quiet (hl : r.settings.mode.isStrict = false) {ts : List Token}
    {f g : Findings} (h : scan r f ts = .ok g) : g.diagnostics = f.diagnostics ∧ g.dropped = f.dropped := by
  cases ts with
  | nil =>
    rw [scan_nil] at h
    cases h
    exact ⟨rfl, rfl⟩
  | cons t rest =>
    by_cases ht : t.kind = .dataType
    case neg =>
      rw [scan_pass ht] at h
      exact scan_lenient_quiet hl h
    cases hlead : lead t rest with
    | skip message at_ rest' =>
      rw [scan_skip ht hlead] at h
      have hlen := lead_skip_length hlead
      have hquiet := scan_lenient_quiet hl h
      rw [skipped_of_lenient hl] at hquiet
      exact hquiet
    | signature n p c o inBody =>
      have hrest := (lead_eq_signature_iff.1 hlead).1
      cases hb : Body.enter r.settings.mode.isStrict r.settings.maxDepth r.finish 0 o inBody with
      | error e =>
        rw [scan_body_error ht hlead hb] at h
        cases h
      | ok body =>
        rw [scan_body_ok ht hlead hb] at h
        obtain ⟨f', hrec, h⟩ := bind_eq_ok h
        have hlen := body.rest.2
        obtain ⟨hdiag, hdropped⟩ := record_of_lenient hl hrec
        obtain ⟨log, hlog⟩ := foldl_unclosed_eq (f := f) body.unclosed
        have hquiet := scan_lenient_quiet hl h
        rw [hquiet.1, hquiet.2, hdiag, hdropped, hlog]
        exact ⟨rfl, rfl⟩
termination_by ts.length
decreasing_by
  all_goals subst_vars
  all_goals simp only [List.length_cons]
  all_goals omega

end Quiet

/-! ## The two runs in step -/

/-- How a strict scan answers where a lenient scan of `ts` answered: with the same error or an
    unmatched delimiter where the lenient scan failed; with the same program where it succeeded
    with well-formed bodies only; and otherwise by failing at the last `{` of `ts` that nothing
    after it closes. -/
def Agree (lenient strict : Except (SyntaxError × Findings) Findings) (ts : List Token) : Prop :=
  match lenient with
  | .error (e, _) => (∃ gs, strict = .error (e, gs)) ∨
      ∃ (o : Token) (gs : Findings), strict = .error (.unmatchedBlockDelimiter o.text o.span, gs)
  | .ok gl =>
    (WellFormedBodies gl.program ∧ ∃ gs, strict = .ok gs ∧ gs.program = gl.program) ∨
      (¬ WellFormedBodies gl.program ∧ ∃ o gs,
        strict = .error (.unmatchedBlockDelimiter o.text o.span, gs) ∧ LastUnclosed ts o)

namespace Agree

variable {ts : List Token} {S : Except (SyntaxError × Findings) Findings}

theorem append (pre : List Token) : ∀ {L}, Agree L S ts → Agree L S (pre ++ ts)
  | .error (_, _), h => h
  | .ok _, Or.inl h => Or.inl h
  | .ok _, Or.inr ⟨hwf, o, gs, hs, hlast⟩ => Or.inr ⟨hwf, o, gs, hs, hlast.append pre⟩

theorem error_same {e : SyntaxError} {gl gs : Findings} :
    Agree (.error (e, gl)) (.error (e, gs)) ts :=
  Or.inl ⟨gs, rfl⟩

theorem error_unmatched {e : SyntaxError} {gl gs : Findings} {o : Token} :
    Agree (.error (e, gl)) (.error (.unmatchedBlockDelimiter o.text o.span, gs)) ts :=
  Or.inr ⟨o, gs, rfl⟩

theorem ok_same {gl gs : Findings} (hwf : WellFormedBodies gl.program)
    (hprog : gs.program = gl.program) : Agree (.ok gl) (.ok gs) ts :=
  Or.inl ⟨hwf, gs, rfl, hprog⟩

theorem ok_unmatched {gl gs : Findings} {o : Token} (hwf : ¬ WellFormedBodies gl.program)
    (hlast : LastUnclosed ts o) :
    Agree (.ok gl) (.error (.unmatchedBlockDelimiter o.text o.span, gs)) ts :=
  Or.inr ⟨hwf, o, gs, rfl, hlast⟩

end Agree

section Simulation

variable {rl rs : Run}

/-- Both runs record the same well-formed definition into the same program, and go on in step
    when they both succeed. -/
theorem agree_record (hpol : rl.settings.policy = rs.settings.policy) {d : FunctionDefinition}
    {fl fs : Findings} {R : List Token} (hprog : fl.program = fs.program)
    (hwf : WellFormedBodies fl.program) (hd : d.body.isWellFormed = true)
    (ih : ∀ gl gs, gl.program = gs.program → WellFormedBodies gl.program →
      Agree (scan rl gl R) (scan rs gs R) R) :
    Agree ((record rl fl d).bind fun f => scan rl f R)
      ((record rs fs d).bind fun f => scan rs f R) R := by
  obtain ⟨herr, hok⟩ := record_modes (d := d) hpol hprog
  cases hrec : record rl fl d with
  | error eg =>
    obtain ⟨e, gl⟩ := eg
    obtain ⟨gs, hs⟩ := herr e gl hrec
    rw [hs]
    exact Agree.error_same
  | ok gl =>
    obtain ⟨gs, hs, hsprog⟩ := hok gl hrec
    obtain ⟨outcome, hins, hne⟩ := record_ok hrec
    rw [hs]
    exact ih gl gs hsprog.symm (hwf.insert hd hins hne)

/-- A lenient and a strict scan of the same tokens, under the same policy, depth limit and end of
    input, from findings with the same program whose bodies are well formed, agree. -/
theorem scan_modes (hl : rl.settings.mode.isStrict = false) (hs : rs.settings.mode.isStrict = true)
    (hpol : rl.settings.policy = rs.settings.policy)
    (hdepth : rl.settings.maxDepth = rs.settings.maxDepth) (hfin : rl.finish = rs.finish)
    {ts : List Token} {fl fs : Findings} (hprog : fl.program = fs.program)
    (hwf : WellFormedBodies fl.program) :
    Agree (scan rl fl ts) (scan rs fs ts) ts := by
  cases ts with
  | nil =>
    rw [scan_nil, scan_nil]
    exact Agree.ok_same hwf hprog.symm
  | cons t rest =>
    by_cases ht : t.kind = .dataType
    case neg =>
      rw [scan_pass ht, scan_pass ht]
      exact (scan_modes hl hs hpol hdepth hfin hprog hwf).append [t]
    cases hlead : lead t rest with
    | skip message at_ rest' =>
      rw [scan_skip ht hlead, scan_skip ht hlead]
      have hlen := lead_skip_length hlead
      obtain ⟨pre, hsplit, -⟩ := lead_eq_skip hlead
      have hagree : Agree (scan rl (skipped rl fl message at_) rest')
          (scan rs (skipped rs fs message at_) rest') rest' :=
        scan_modes hl hs hpol hdepth hfin (by simp [hprog]) (by simpa using hwf)
      rw [hsplit, ← List.cons_append]
      exact hagree.append (t :: pre)
    | signature n p c o inBody =>
      obtain ⟨rfl, hkinds⟩ := lead_eq_signature_iff.1 hlead
      have hbs : Body.enter rs.settings.mode.isStrict rs.settings.maxDepth rs.finish 0 o inBody =
          Body.enter true rl.settings.maxDepth rl.finish 0 o inBody := by
        rw [hs, hdepth, hfin]
      cases hbl : Body.enter rl.settings.mode.isStrict rl.settings.maxDepth rl.finish 0 o inBody with
      | error e =>
        rw [hl] at hbl
        rw [scan_body_error ht hlead (by rw [hl]; exact hbl),
          scan_body_error ht hlead (by rw [hbs]; exact enter_strict_error hbl)]
        exact Agree.error_same
      | ok body =>
        rw [scan_body_ok ht hlead hbl]
        rw [hl] at hbl
        have hstrict := enter_strict hbl
        have hlen := body.rest.2
        cases hu : body.unclosed with
        | nil =>
          -- no brace is left open: both runs read the same body and record the same definition
          rw [hu] at hstrict
          rw [scan_body_ok ht hlead (by rw [hbs]; exact hstrict)]
          obtain ⟨pre, hpre⟩ := enter_rest_suffix hbl
          have hsplit : t :: n :: p :: c :: o :: inBody =
              (t :: n :: p :: c :: o :: pre) ++ body.rest.1 := by
            show _ = t :: n :: p :: c :: o :: (pre ++ body.rest.1)
            rw [← hpre]
          rw [hsplit]
          exact (agree_record hpol (by simp [hprog]) (by simpa using hwf)
            ((enter_wellFormed hbl).2 hu)
            fun gl gs h₁ h₂ => scan_modes hl hs hpol hdepth hfin h₁ h₂).append _
        | cons o' more =>
          -- the body reaches to the end, where strict reading fails at the innermost open brace
          rw [hu] at hstrict
          rw [scan_body_error ht hlead (by rw [hbs]; exact hstrict)]
          have hlast : LastUnclosed (t :: n :: p :: c :: o :: inBody) o' :=
            (enter_lastUnclosed hbl hkinds.2.2.2 hu).append [t, n, p, c]
          have hnwf : body.block.isWellFormed = false := by
            cases hw : body.block.isWellFormed
            · rfl
            · have hnil := (enter_wellFormed hbl).1 hw
              rw [hu] at hnil
              cases hnil
          rw [enter_rest_of_unclosed hbl (by rw [hu]; exact List.cons_ne_nil _ _)]
          generalize hrec : record rl _ _ = x
          cases x with
          | error eg =>
            obtain ⟨e, gl⟩ := eg
            exact Agree.error_unmatched
          | ok gl =>
            obtain ⟨outcome, hins, hne⟩ := record_ok hrec
            show Agree (scan rl gl []) _ _
            rw [scan_nil]
            exact Agree.ok_unmatched (not_wellFormedBodies_insert hnwf hins hne) hlast
termination_by ts.length
decreasing_by
  all_goals subst_vars
  all_goals simp only [List.length_cons]
  all_goals omega

end Simulation

/-! ## The two analyses -/

section Analyses

variable {sl ss : AnalysisSettings}

/-- The scans' agreement read off the results of the two analyses. -/
theorem analyzeTokens_agree (hl : sl.mode = .lenient) (hs : ss.mode = .strict)
    (hpol : sl.policy = ss.policy) (hdepth : sl.maxDepth = ss.maxDepth) (ts : List Token) :
    (∀ e, (analyzeTokens sl ts).result = .error e →
      (analyzeTokens ss ts).result = .error e ∨
        ∃ o : Token, (analyzeTokens ss ts).result = .error (.unmatchedBlockDelimiter o.text o.span)) ∧
    (∀ res, (analyzeTokens sl ts).result = .ok res →
      res.diagnostics = [] ∧ res.dropped = 0 ∧
      ((WellFormedBodies res.program ∧
          ∃ res', (analyzeTokens ss ts).result = .ok res' ∧ res'.program = res.program) ∨
        (¬ WellFormedBodies res.program ∧ ∃ o,
          (analyzeTokens ss ts).result = .error (.unmatchedBlockDelimiter o.text o.span) ∧
            LastUnclosed ts o))) := by
  have hlenient : sl.mode.isStrict = false := by rw [hl]; rfl
  obtain ⟨fileL, fl, hflp, -, -, hfld, hokL, herrL⟩ := analyzeTokens_result sl ts
  obtain ⟨fileS, fs, hfsp, -, -, -, hokS, herrS⟩ := analyzeTokens_result ss ts
  have hrl : (⟨sl, fileL, endSpanOf ts⟩ : Run).settings.mode.isStrict = false := hlenient
  have hrs : (⟨ss, fileS, endSpanOf ts⟩ : Run).settings.mode.isStrict = true := by
    show ss.mode.isStrict = true
    rw [hs]
    rfl
  have hprog : fl.program = fs.program := by rw [hflp, hfsp]
  have hwf : WellFormedBodies fl.program := by
    rw [hflp]
    exact wellFormedBodies_empty
  have hagree : Agree (scan ⟨sl, fileL, endSpanOf ts⟩ fl ts) (scan ⟨ss, fileS, endSpanOf ts⟩ fs ts)
      ts :=
    scan_modes hrl hrs hpol hdepth rfl hprog hwf
  have hquiet := hfld hlenient
  cases hL : scan ⟨sl, fileL, endSpanOf ts⟩ fl ts with
  | error eg =>
    obtain ⟨e, gl⟩ := eg
    rw [hL] at hagree
    rw [herrL e gl hL]
    refine ⟨fun e' he' => ?_, fun res hres => ?_⟩
    · cases he'
      rcases hagree with ⟨gs, hS⟩ | ⟨o, gs, hS⟩
      · exact Or.inl (herrS e gs hS)
      · exact Or.inr ⟨o, herrS _ gs hS⟩
    · cases hres
  | ok gl =>
    rw [hL] at hagree
    rw [hokL gl hL]
    refine ⟨fun e he => ?_, fun res hres => ?_⟩
    · cases he
    cases hres
    obtain ⟨hdiag, hdropped⟩ := scan_lenient_quiet hlenient hL
    refine ⟨by rw [hdiag, hquiet.1], by rw [hdropped, hquiet.2], ?_⟩
    rcases hagree with ⟨hwf, gs, hS, hprog⟩ | ⟨hwf, o, gs, hS, hlast⟩
    · exact Or.inl ⟨hwf, _, hokS gs hS, hprog⟩
    · exact Or.inr ⟨hwf, o, herrS _ gs hS, hlast⟩

/-- Strict and lenient analysis of the same tokens under the same policy and depth limit agree
    except at blocks the tokens leave open: lenient analysis reports nothing; strict analysis
    succeeds exactly when lenient analysis succeeds with well-formed bodies only, and then finds
    the same program; when a lenient body is not well formed, strict analysis fails at the last
    `{` that no `}` after it closes, named by that token's text and span; and where lenient
    analysis fails, strict analysis fails with the same error or an unmatched delimiter. -/
theorem analyzeTokens_modes (s : AnalysisSettings) (ts : List Token) :
    (∀ res, (analyzeTokens { s with mode := .lenient } ts).result = .ok res →
      res.diagnostics = [] ∧ res.dropped = 0) ∧
    ((∃ res', (analyzeTokens { s with mode := .strict } ts).result = .ok res') ↔
      ∃ res, (analyzeTokens { s with mode := .lenient } ts).result = .ok res ∧
        WellFormedBodies res.program) ∧
    (∀ res res', (analyzeTokens { s with mode := .lenient } ts).result = .ok res →
      (analyzeTokens { s with mode := .strict } ts).result = .ok res' →
        res'.program = res.program) ∧
    (∀ res, (analyzeTokens { s with mode := .lenient } ts).result = .ok res →
      ¬ WellFormedBodies res.program →
      ∃ o, (analyzeTokens { s with mode := .strict } ts).result =
          .error (.unmatchedBlockDelimiter o.text o.span) ∧ LastUnclosed ts o) ∧
    (∀ e, (analyzeTokens { s with mode := .lenient } ts).result = .error e →
      (analyzeTokens { s with mode := .strict } ts).result = .error e ∨
        ∃ d sp, (analyzeTokens { s with mode := .strict } ts).result =
          .error (.unmatchedBlockDelimiter d sp)) := by
  obtain ⟨herr, hok⟩ := @analyzeTokens_agree { s with mode := .lenient }
    { s with mode := .strict } rfl rfl rfl rfl ts
  refine ⟨fun res h => ⟨(hok res h).1, (hok res h).2.1⟩, ⟨fun hS => ?_, ?_⟩, ?_, ?_, ?_⟩
  · -- strict analysis succeeds only where lenient analysis does, with well-formed bodies
    obtain ⟨res', hres'⟩ := hS
    cases hL : (analyzeTokens { s with mode := .lenient } ts).result with
    | error e =>
      rcases herr e hL with hS | ⟨o, hS⟩
      · rw [hS] at hres'
        cases hres'
      · rw [hS] at hres'
        cases hres'
    | ok res =>
      rcases (hok res hL).2.2 with ⟨hwf, -⟩ | ⟨-, o, hS, -⟩
      · exact ⟨res, rfl, hwf⟩
      · rw [hS] at hres'
        cases hres'
  · rintro ⟨res, hL, hwf⟩
    rcases (hok res hL).2.2 with ⟨-, res', hS, -⟩ | ⟨hnwf, -⟩
    · exact ⟨res', hS⟩
    · exact absurd hwf hnwf
  · intro res res' hL hS
    rcases (hok res hL).2.2 with ⟨-, res'', hS', hprog⟩ | ⟨-, o, hS', -⟩
    · rw [hS] at hS'
      cases hS'
      exact hprog
    · rw [hS] at hS'
      cases hS'
  · intro res hL hnwf
    rcases (hok res hL).2.2 with ⟨hwf, -⟩ | ⟨-, o, hS, hlast⟩
    · exact absurd hwf hnwf
    · exact ⟨o, hS, hlast⟩
  · intro e hL
    rcases herr e hL with hS | ⟨o, hS⟩
    · exact Or.inl hS
    · exact Or.inr ⟨o.text, o.span, hS⟩

/-- The delimiter strict analysis names is the opening token's text: after `int f ( ) <` whose
    last token has the kind of an opening brace, lenient analysis keeps a body that is not well
    formed, and strict analysis fails naming `<`, not `{`. -/
theorem unmatched_delimiter_of_opener_text :
    let ts := TokenStream.layout "<builder>" [(.dataType, "int"), (.identifier, "f"),
      (.openingParenthesis, "("), (.closingParenthesis, ")"), (.openingCurlyBrace, "<")]
    (∃ res, (analyzeTokens { mode := .lenient } ts).result = .ok res ∧
      ¬ WellFormedBodies res.program) ∧
    ∀ sp, (analyzeTokens { mode := .strict } ts).result ≠
      .error (.unmatchedBlockDelimiter "\x7b" sp) := by
  intro ts
  have hbody : (analyzeTokens { mode := .lenient } ts).result.toOption.any
      (fun res => (res.program.get? "f").any fun d => !d.body.isWellFormed) = true := by
    decide +kernel
  have hopeners : ∀ t ∈ ts, t.kind = .openingCurlyBrace → t.text = "<" := by decide +kernel
  cases hL : (analyzeTokens { mode := .lenient } ts).result with
  | error e =>
    rw [hL] at hbody
    cases hbody
  | ok res =>
    have hnwf : ¬ WellFormedBodies res.program := by
      intro hwf
      rw [hL] at hbody
      change (res.program.get? "f").any (fun d => !d.body.isWellFormed) = true at hbody
      cases hget : res.program.get? "f" with
      | none =>
        rw [hget] at hbody
        cases hbody
      | some d =>
        rw [hget] at hbody
        simp [hwf "f" d hget] at hbody
    refine ⟨⟨res, rfl, hnwf⟩, fun sp h => ?_⟩
    -- strict analysis names the last unclosed opener, and the only opener here is written <
    obtain ⟨-, hok⟩ := @analyzeTokens_agree { mode := .lenient } { mode := .strict }
      rfl rfl rfl rfl ts
    rcases (hok res hL).2.2 with ⟨hwf, -⟩ | ⟨-, o, hS, pre, post, hts, hkind, -⟩
    · exact absurd hwf hnwf
    · have ho : o.text = "<" := hopeners o (by rw [hts]; simp) hkind
      rw [h] at hS
      simp only [Except.error.injEq, SyntaxError.unmatchedBlockDelimiter.injEq] at hS
      rw [ho] at hS
      exact absurd hS.1 (by decide)

end Analyses

end Analysis

end COutline
