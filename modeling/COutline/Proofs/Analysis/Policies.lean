import COutline.Proofs.Analysis.Scan
import COutline.Proofs.Outline.Program

/-!
# Duplicate policies

The top-level scan recognizes definitions in stream order, whatever the duplicate policy:
`recognized` lists them, with the error of the body reading that stops the scan, if any.  The
policy only decides what happens when a recognized definition repeats a name already in the
program.

Under the reject policy the scan runs as under the overwrite policy up to the first repetition
and fails there (`scan_reject`).  Under the overwrite policy the scan fails only where a body
reading fails, its program holds the recognized definitions inserted in order, and in strict
mode every replacement is reported, its warning kept or counted as dropped (`scan_overwrite`).
`analyzeTokens_policies` reads these off the two analyses of the same tokens.

Kept diagnostics are capped: once the cap is reached a warning is only counted, so in strict
mode the warnings kept may be fewer than the replacements
(`redefinition_warning_dropped_past_limit`).
-/

namespace COutline

namespace Analysis

/-! ## The definitions the scan recognizes -/

theorem lead_signature_length {t n p c o : Token} {rest inBody : List Token}
    (h : lead t rest = .signature n p c o inBody) : inBody.length < rest.length := by
  obtain ⟨rfl, -⟩ := lead_eq_signature_iff.1 h
  simp only [List.length_cons]
  omega

/-- The definitions the top-level scan of `ts` recognizes, in stream order, and the error of the
    body reading that stops it, if any.  Nothing here depends on the duplicate policy. -/
def recognized (strict : Bool) (maxDepth : Nat) (finish : Span) :
    List Token → List FunctionDefinition × Option SyntaxError
  | [] => ([], none)
  | t :: rest =>
    if t.kind = .dataType then
      match _hl : lead t rest with
      | .skip _ _ rest' => recognized strict maxDepth finish rest'
      | .signature n _ c o inBody =>
        match Body.enter strict maxDepth finish 0 o inBody with
        | .error e => ([], some e.1)
        | .ok body =>
          let later := recognized strict maxDepth finish body.rest.1
          (⟨signatureHeader t n c, body.block⟩ :: later.1, later.2)
    else recognized strict maxDepth finish rest
termination_by ts => ts.length
decreasing_by
  · exact Nat.lt_succ_of_le (lead_skip_length _hl)
  · exact Nat.lt_succ_of_lt (Nat.lt_of_le_of_lt body.rest.2 (lead_signature_length _hl))
  · exact Nat.lt_succ_self _

section Recognized

variable {strict : Bool} {m : Nat} {fin : Span} {t : Token} {rest : List Token}

@[simp] theorem recognized_nil : recognized strict m fin [] = ([], none) := by
  rw [recognized]

theorem recognized_pass (ht : t.kind ≠ .dataType) :
    recognized strict m fin (t :: rest) = recognized strict m fin rest := by
  rw [recognized, if_neg ht]

theorem recognized_skip {message : String} {at_ : Token} {rest' : List Token}
    (ht : t.kind = .dataType) (h : lead t rest = .skip message at_ rest') :
    recognized strict m fin (t :: rest) = recognized strict m fin rest' := by
  rw [recognized, if_pos ht]
  split
  · next heq => rw [h] at heq; cases heq; rfl
  · next heq => rw [h] at heq; cases heq

theorem recognized_body_error {n p c o : Token} {inBody : List Token}
    {e : SyntaxError × LogEvent} (ht : t.kind = .dataType)
    (h : lead t rest = .signature n p c o inBody)
    (hb : Body.enter strict m fin 0 o inBody = .error e) :
    recognized strict m fin (t :: rest) = ([], some e.1) := by
  rw [recognized, if_pos ht]
  split
  · next heq => rw [h] at heq; cases heq
  · next heq =>
    rw [h] at heq
    cases heq
    simp only [hb]

theorem recognized_body_ok {n p c o : Token} {inBody : List Token} {body : Body inBody}
    (ht : t.kind = .dataType) (h : lead t rest = .signature n p c o inBody)
    (hb : Body.enter strict m fin 0 o inBody = .ok body) :
    recognized strict m fin (t :: rest) =
      (⟨signatureHeader t n c, body.block⟩ :: (recognized strict m fin body.rest.1).1,
        (recognized strict m fin body.rest.1).2) := by
  rw [recognized, if_pos ht]
  split
  · next heq => rw [h] at heq; cases heq
  · next heq =>
    rw [h] at heq
    cases heq
    simp only [hb]

/-- Every block read has a span. -/
theorem items_span_isSome {d : Nat} {o : Token} {ch : Array Block} {u ts : List Token}
    {b : Body ts} (h : Body.items strict m fin d o ch u ts = .ok b) : b.block.span.isSome := by
  fun_induction Body.items strict m fin d o ch u ts with
  | case1 => cases h
  | case2 => cases h; rfl
  | case3 => cases h; rfl
  | case4 => cases h
  | case5 => cases h
  | case6 => cases h
  | case7 _ _ _ _ _ _ _ _ _ _ c hc b' hb' _ ihb => cases h; exact ihb hb'

/-- Every recognized definition has a header span and a body span. -/
theorem recognized_spans {ts : List Token} {d : FunctionDefinition}
    (h : d ∈ (recognized strict m fin ts).1) : ∃ hs bs, d.header.span = some hs ∧ d.body.span = some bs := by
  fun_induction recognized strict m fin ts with
  | case1 => cases h
  | case2 _ _ _ _ _ _ _ ih => exact ih h
  | case3 => cases h
  | case4 t rest _ n _ c o inBody _ body hb _ ih =>
    rcases List.mem_cons.1 h with rfl | h
    · obtain ⟨bs, hbs⟩ := Option.isSome_iff_exists.1 (items_span_isSome (items_of_enter hb))
      exact ⟨_, bs, rfl, hbs⟩
    · exact ih h
  | case5 _ _ _ ih => exact ih h

end Recognized

/-! ## Names recognized before -/

/-- The first of `ds` whose name is in `seen` or names a definition before it. -/
def firstRepeat? : List String → List FunctionDefinition → Option FunctionDefinition
  | _, [] => none
  | seen, d :: ds => if d.name ∈ seen then some d else firstRepeat? (d.name :: seen) ds

/-- How many of `ds` have a name that is in `seen` or names a definition before them. -/
def repeatCount : List String → List FunctionDefinition → Nat
  | _, [] => 0
  | seen, d :: ds => (if d.name ∈ seen then 1 else 0) + repeatCount (d.name :: seen) ds

section Repeats

variable {seen seen' : List String} {ds : List FunctionDefinition}

/-- Only which names are seen matters. -/
theorem firstRepeat?_congr (h : ∀ n, n ∈ seen ↔ n ∈ seen') :
    firstRepeat? seen ds = firstRepeat? seen' ds := by
  induction ds generalizing seen seen' with
  | nil => rfl
  | cons d ds ih =>
    have hcons : ∀ n, n ∈ d.name :: seen ↔ n ∈ d.name :: seen' := fun n => by
      simp only [List.mem_cons, h n]
    simp only [firstRepeat?, h d.name, ih hcons]

theorem repeatCount_congr (h : ∀ n, n ∈ seen ↔ n ∈ seen') :
    repeatCount seen ds = repeatCount seen' ds := by
  induction ds generalizing seen seen' with
  | nil => rfl
  | cons d ds ih =>
    have hcons : ∀ n, n ∈ d.name :: seen ↔ n ∈ d.name :: seen' := fun n => by
      simp only [List.mem_cons, h n]
    simp only [repeatCount, h d.name, ih hcons]

/-- Definitions with pairwise distinct names, none of them seen, repeat nothing. -/
theorem firstRepeat?_eq_none (hnodup : (ds.map FunctionDefinition.name).Nodup)
    (hfresh : ∀ d ∈ ds, d.name ∉ seen) : firstRepeat? seen ds = none := by
  induction ds generalizing seen with
  | nil => rfl
  | cons d ds ih =>
    rw [List.map_cons, List.nodup_cons] at hnodup
    rw [firstRepeat?, if_neg (hfresh d List.mem_cons_self)]
    refine ih hnodup.2 fun d' hd' hmem => ?_
    rcases List.mem_cons.1 hmem with heq | hseen
    · exact hnodup.1 (heq ▸ List.mem_map_of_mem hd')
    · exact hfresh d' (List.mem_cons_of_mem _ hd') hseen

/-- The first definition whose name was seen or recognized before it is the first repetition. -/
theorem firstRepeat?_eq_some {pre post : List FunctionDefinition} {d : FunctionDefinition}
    (hnodup : (pre.map FunctionDefinition.name).Nodup) (hfresh : ∀ x ∈ pre, x.name ∉ seen)
    (hrep : d.name ∈ pre.map FunctionDefinition.name ∨ d.name ∈ seen) :
    firstRepeat? seen (pre ++ d :: post) = some d := by
  induction pre generalizing seen with
  | nil =>
    simp only [List.map_nil, List.not_mem_nil, false_or] at hrep
    rw [List.nil_append, firstRepeat?, if_pos hrep]
  | cons x pre ih =>
    rw [List.map_cons, List.nodup_cons] at hnodup
    rw [List.cons_append, firstRepeat?, if_neg (hfresh x List.mem_cons_self)]
    refine ih hnodup.2 (fun y hy hmem => ?_) ?_
    · rcases List.mem_cons.1 hmem with heq | hseen
      · exact hnodup.1 (heq ▸ List.mem_map_of_mem hy)
      · exact hfresh y (List.mem_cons_of_mem _ hy) hseen
    · simp only [List.map_cons, List.mem_cons] at hrep
      rcases hrep with (hx | hpre) | hseen
      · exact .inr (List.mem_cons.2 (.inl hx))
      · exact .inl hpre
      · exact .inr (List.mem_cons_of_mem _ hseen)

end Repeats

end Analysis

/-! ## Inserting under each policy -/

namespace Program

variable {p : Program} {d : FunctionDefinition}

theorem mem_names_insert_overwrite (n : String) :
    n ∈ (p.insert d .overwrite).2.names ↔ n = d.name ∨ n ∈ p.names := by
  rw [mem_names_iff, get?_insert_overwrite, mem_names_iff]
  by_cases h : n = d.name <;> simp [h]

theorem functions_get?_eq_none (h : d.name ∉ p.names) : p.functions.get? d.name = none := by
  rw [mem_names_iff] at h
  simpa [get?] using h

/-- A name not yet present is inserted, whatever the policy. -/
theorem insert_of_not_mem (h : d.name ∉ p.names) (policy : DuplicatePolicy) :
    p.insert d policy = (.inserted, (p.insert d .overwrite).2) := by
  unfold insert insertAs
  rw [functions_get?_eq_none h]

/-- The reject policy refuses a name already present and keeps the program. -/
theorem insert_reject_of_mem (h : d.name ∈ p.names) : p.insert d .reject = (.rejected d, p) := by
  rw [mem_names_iff] at h
  obtain ⟨prev, hprev⟩ := Option.isSome_iff_exists.1 h
  unfold insert insertAs
  rw [show p.functions.get? d.name = some prev from hprev]

/-- A refused insertion leaves the program as it was. -/
theorem insert_snd_of_rejected {policy : DuplicatePolicy} {d' : FunctionDefinition}
    (h : (p.insert d policy).1 = .rejected d') : (p.insert d policy).2 = p := by
  unfold insert insertAs at *
  split
  · rfl
  · next heq => rw [heq] at h; cases h
  · next heq => rw [heq] at h; cases h

/-- The overwrite policy refuses nothing. -/
theorem insert_overwrite_fst_ne_rejected (d' : FunctionDefinition) :
    (p.insert d .overwrite).1 ≠ .rejected d' := by
  unfold insert insertAs
  split <;> simp_all

/-- Insert the definitions of `ds` in order, each replacing an earlier one of its name. -/
def overwriteAll (p : Program) (ds : List FunctionDefinition) : Program :=
  ds.foldl (fun p d => (p.insert d .overwrite).2) p

/-- After inserting `ds` in order, a name holds its last definition in `ds`, or what it held
    before when `ds` has none. -/
theorem get?_overwriteAll (ds : List FunctionDefinition) (name : String) :
    (p.overwriteAll ds).get? name = (ds.reverse.find? (·.name == name)).or (p.get? name) := by
  induction ds generalizing p with
  | nil => simp [overwriteAll]
  | cons d ds ih =>
    rw [overwriteAll, List.foldl_cons, ← overwriteAll, ih, get?_insert_overwrite,
      List.reverse_cons, List.find?_append, Option.or_assoc]
    congr 1
    by_cases h : name = d.name
    · simp [h]
    · simp [h, Ne.symm h]

end Program

namespace Analysis

/-! ## Accounting for redefinition warnings -/

/-- The redefinition warnings among the kept diagnostics. -/
def Findings.redefinitionWarnings (f : Findings) : Nat :=
  f.diagnostics.toList.countP (·.code == "W042")

/-- From `f` to `g` the run reported `k` redefinitions: at most `k` more warnings were kept, each
    one not kept was counted as dropped, and once the kept diagnostics reached the limit nothing
    more was kept. -/
def Accounted (k : Nat) (f g : Findings) : Prop :=
  g.redefinitionWarnings ≤ f.redefinitionWarnings + k ∧
    f.redefinitionWarnings + k + f.dropped ≤ g.redefinitionWarnings + g.dropped ∧
    (Limits.standard.maxDiagnostics ≤ f.diagnostics.size → g.diagnostics = f.diagnostics)

namespace Accounted

variable {k l : Nat} {f g h : Findings}

theorem of_fields (hd : g.diagnostics = f.diagnostics) (hdr : g.dropped = f.dropped) :
    Accounted 0 f g := by
  unfold Accounted Findings.redefinitionWarnings
  rw [hd, hdr]
  exact ⟨by omega, by omega, fun _ => rfl⟩

theorem trans (h₁ : Accounted k f g) (h₂ : Accounted l g h) : Accounted (k + l) f h := by
  obtain ⟨h₁₁, h₁₂, h₁₃⟩ := h₁
  obtain ⟨h₂₁, h₂₂, h₂₃⟩ := h₂
  refine ⟨by omega, by omega, fun hfull => ?_⟩
  -- a full list stays full, so neither step kept anything
  have hg := h₁₃ hfull
  rw [← hg] at hfull
  rw [h₂₃ hfull, hg]

end Accounted

/-- A kept diagnostic is appended; past the limit it is only counted. -/
theorem Findings.report_eq (f : Findings) (d : Diagnostic) :
    (f.report d = { f with dropped := f.dropped + 1 } ∧
        Limits.standard.maxDiagnostics ≤ f.diagnostics.size) ∨
      (f.report d = { f with diagnostics := f.diagnostics.push d } ∧
        f.diagnostics.size < Limits.standard.maxDiagnostics) := by
  unfold Findings.report
  split
  · next h => exact .inl ⟨rfl, h⟩
  · next h => exact .inr ⟨rfl, Nat.lt_of_not_le h⟩

theorem accounted_report (f : Findings) (d : Diagnostic) :
    Accounted (if d.code = "W042" then 1 else 0) f (f.report d) := by
  unfold Accounted Findings.redefinitionWarnings
  rcases f.report_eq d with ⟨h, -⟩ | ⟨h, hroom⟩ <;> rw [h]
  · -- past the limit nothing is kept and the report is counted as dropped
    refine ⟨?_, ?_, fun _ => rfl⟩ <;> split <;> (dsimp only; omega)
  · refine ⟨?_, ?_, fun hfull => absurd hfull (Nat.not_le_of_lt hroom)⟩ <;>
      simp only [Array.toList_push, List.countP_append, List.countP_singleton] <;>
      by_cases hd : d.code = "W042" <;> simp [hd]

theorem accounted_report_redefinition (f : Findings) (message : String) (at_ : Location)
    (span : Span) : Accounted 1 f (f.report ⟨"W042", message, at_, span⟩) := by
  simpa using accounted_report f ⟨"W042", message, at_, span⟩

theorem accounted_note (f : Findings) (e : LogEvent) : Accounted 0 f (f.note e) :=
  Accounted.of_fields rfl rfl

theorem accounted_skipped (r : Run) (f : Findings) (message : String) (at_ : Token) :
    Accounted 0 f (skipped r f message at_) := by
  unfold skipped
  split
  · exact accounted_report f _
  · exact accounted_note f _

/-! ## Recording under each policy -/

/-- The same run under the policy `p`. -/
def Run.withPolicy (r : Run) (p : DuplicatePolicy) : Run :=
  { r with settings := { r.settings with policy := p } }

theorem bind_eq_error {ε α β : Type} {x : Except ε α} {k : α → Except ε β} {e : ε}
    (h : x.bind k = .error e) : x = .error e ∨ ∃ a, x = .ok a ∧ k a = .error e := by
  cases x with
  | error e' =>
    cases h
    exact .inl rfl
  | ok a => exact .inr ⟨a, rfl, h⟩

section Record

variable {r : Run} {f g : Findings} {d : FunctionDefinition}

/-- A definition whose name is new is inserted under any policy, and nothing is reported. -/
theorem record_of_not_mem (h : d.name ∉ f.program.names) :
    record r f d = .ok { f with program := (f.program.insert d .overwrite).2 } := by
  unfold record
  rw [Program.insert_of_not_mem h]

/-- Under the reject policy a name already present stops the scan, naming the definition and
    its span. -/
theorem record_reject_of_mem (hpol : r.settings.policy = .reject) (h : d.name ∈ f.program.names) :
    record r f d = .error (f.halt (duplicateHalt d.name (d.span?.getD Span.dummy))) := by
  unfold record
  rw [hpol, Program.insert_reject_of_mem h]

/-- Under the overwrite policy recording inserts the definition, and in strict mode reports a
    replaced one. -/
theorem record_overwrite (hpol : r.settings.policy = .overwrite) (h : record r f d = .ok g) :
    g.program = (f.program.insert d .overwrite).2 ∧
      (r.settings.mode.isStrict = true →
        Accounted (if d.name ∈ f.program.names then 1 else 0) f g) := by
  by_cases hmem : d.name ∈ f.program.names
  case neg =>
    rw [record_of_not_mem hmem] at h
    cases h
    exact ⟨rfl, fun _ => by rw [if_neg hmem]; exact Accounted.of_fields rfl rfl⟩
  obtain ⟨outcome, hins, hne⟩ := record_ok h
  rw [hpol] at hins
  refine ⟨by rw [hins], fun hs => ?_⟩
  rw [if_pos hmem]
  unfold record at h
  rw [hpol] at h
  split at h
  · -- a present name is never inserted afresh
    next p' heq =>
    rw [Program.mem_names_iff] at hmem
    unfold Program.insert Program.insertAs at heq
    split at heq <;> simp_all [Program.get?]
  · next previous p' heq =>
    rw [if_pos hs] at h
    cases h
    -- the warning is the only report: one redefinition accounted for
    exact (accounted_note _ _).trans (accounted_report_redefinition _ _ _ _)
  · cases h

end Record

/-! ## Whole scans under each policy -/

section Runs

variable {r : Run}

@[simp] theorem skipped_withPolicy (p : DuplicatePolicy) (f : Findings) (message : String)
    (at_ : Token) : skipped (r.withPolicy p) f message at_ = skipped r f message at_ := rfl

@[simp] theorem recognizedEvent_withPolicy (p : DuplicatePolicy) (t : Token) (h : FunctionHeader) :
    recognizedEvent (r.withPolicy p) t h = recognizedEvent r t h := rfl

/-- Under the reject policy the scan runs exactly as under the overwrite policy as long as no
    recognized definition repeats a name of the program, and fails at the first one that does. -/
theorem scan_reject (hpol : r.settings.policy = .reject) {ts : List Token} {f : Findings} :
    (firstRepeat? f.program.names
        (recognized r.settings.mode.isStrict r.settings.maxDepth r.finish ts).1 = none →
      scan r f ts = scan (r.withPolicy .overwrite) f ts) ∧
    (∀ d, firstRepeat? f.program.names
        (recognized r.settings.mode.isStrict r.settings.maxDepth r.finish ts).1 = some d →
      ∃ g, scan r f ts = .error (.duplicateFunction d.name (d.span?.getD Span.dummy), g)) := by
  cases ts with
  | nil =>
    rw [recognized_nil, scan_nil, scan_nil]
    exact ⟨fun _ => rfl, fun d h => by cases h⟩
  | cons t rest =>
    by_cases ht : t.kind = .dataType
    case neg =>
      rw [recognized_pass ht, scan_pass ht, scan_pass ht]
      exact scan_reject hpol
    cases hl : lead t rest with
    | skip message at_ rest' =>
      have hlen := lead_skip_length hl
      rw [recognized_skip ht hl, scan_skip ht hl, scan_skip ht hl, skipped_withPolicy]
      rw [← skipped_program (r := r) (f := f) message at_]
      exact scan_reject hpol
    | signature n p c o inBody =>
      have hlen := lead_signature_length hl
      have hlen' : ∀ b : Body inBody, b.rest.1.length < (t :: rest).length := fun b =>
        Nat.lt_succ_of_lt (Nat.lt_of_le_of_lt b.rest.2 hlen)
      cases hb : Body.enter r.settings.mode.isStrict r.settings.maxDepth r.finish 0 o inBody with
      | error e =>
        rw [recognized_body_error ht hl hb, scan_body_error ht hl hb,
          scan_body_error (r := r.withPolicy .overwrite) ht hl hb]
        exact ⟨fun _ => rfl, fun d h => by cases h⟩
      | ok body =>
        rw [recognized_body_ok ht hl hb, scan_body_ok ht hl hb,
          scan_body_ok (r := r.withPolicy .overwrite) ht hl hb, recognizedEvent_withPolicy]
        generalize hf₁ : (body.unclosed.foldl (fun f o => f.note (unclosedEvent o)) f).note
          (recognizedEvent r t (signatureHeader t n c)) = f₁
        have hprog : f₁.program = f.program := by
          rw [← hf₁, note_program, foldl_unclosed_program]
        generalize hd : (⟨signatureHeader t n c, body.block⟩ : FunctionDefinition) = d
        rw [firstRepeat?]
        by_cases hmem : d.name ∈ f.program.names
        · -- the name is taken: this definition is the first repetition, and is refused
          rw [if_pos hmem]
          constructor
          · intro h
            cases h
          rintro d' ⟨⟩
          rw [← hprog] at hmem
          exact ⟨f₁.note (duplicateHalt d.name (d.span?.getD Span.dummy)).2, by
            rw [record_reject_of_mem hpol hmem]
            rfl⟩
        · -- a new name is inserted under both policies alike
          rw [if_neg hmem]
          rw [← hprog] at hmem
          rw [record_of_not_mem hmem, record_of_not_mem hmem]
          have hnames : ∀ name, name ∈ (f₁.program.insert d .overwrite).2.names ↔
              name ∈ d.name :: f.program.names := by
            intro name
            rw [Program.mem_names_insert_overwrite, List.mem_cons, hprog]
          have hshort := hlen' body
          have ih := @scan_reject hpol body.rest.1
            { f₁ with program := (f₁.program.insert d .overwrite).2 }
          rw [firstRepeat?_congr hnames] at ih
          exact ih
termination_by ts.length
decreasing_by
  all_goals subst_vars
  all_goals simp only [List.length_cons]
  all_goals omega

/-- Under the overwrite policy a scan fails exactly where reading a recognized body fails.  When
    it succeeds, its program holds the recognized definitions inserted in order, and in strict
    mode each definition that replaced another was reported, kept or counted as dropped. -/
theorem scan_overwrite (hpol : r.settings.policy = .overwrite) {ts : List Token} {f : Findings} :
    (∀ g, scan r f ts = .ok g →
      (recognized r.settings.mode.isStrict r.settings.maxDepth r.finish ts).2 = none ∧
      g.program = f.program.overwriteAll
        (recognized r.settings.mode.isStrict r.settings.maxDepth r.finish ts).1 ∧
      (r.settings.mode.isStrict = true → Accounted (repeatCount f.program.names
        (recognized r.settings.mode.isStrict r.settings.maxDepth r.finish ts).1) f g)) ∧
    (∀ e g, scan r f ts = .error (e, g) →
      (recognized r.settings.mode.isStrict r.settings.maxDepth r.finish ts).2 = some e) := by
  cases ts with
  | nil =>
    rw [recognized_nil, scan_nil]
    refine ⟨fun g h => ?_, fun e g h => by cases h⟩
    cases h
    exact ⟨rfl, rfl, fun _ => Accounted.of_fields rfl rfl⟩
  | cons t rest =>
    by_cases ht : t.kind = .dataType
    case neg =>
      rw [recognized_pass ht, scan_pass ht]
      exact scan_overwrite hpol
    cases hl : lead t rest with
    | skip message at_ rest' =>
      have hlen := lead_skip_length hl
      rw [recognized_skip ht hl, scan_skip ht hl]
      obtain ⟨hok, herr⟩ := @scan_overwrite hpol rest' (skipped r f message at_)
      refine ⟨fun g h => ?_, herr⟩
      obtain ⟨hnone, hprog, hacc⟩ := hok g h
      rw [skipped_program] at hprog hacc
      -- a skipped construct reports no redefinition
      exact ⟨hnone, hprog, fun hs => by
        simpa using (accounted_skipped r f message at_).trans (hacc hs)⟩
    | signature n p c o inBody =>
      have hlen := lead_signature_length hl
      cases hb : Body.enter r.settings.mode.isStrict r.settings.maxDepth r.finish 0 o inBody with
      | error e =>
        rw [recognized_body_error ht hl hb, scan_body_error ht hl hb]
        refine ⟨fun g h => (by cases h), fun e' g h => ?_⟩
        cases h
        rfl
      | ok body =>
        have hshort := body.rest.2
        rw [recognized_body_ok ht hl hb, scan_body_ok ht hl hb]
        generalize hf₁ : (body.unclosed.foldl (fun f o => f.note (unclosedEvent o)) f).note
          (recognizedEvent r t (signatureHeader t n c)) = f₁
        have hprog₁ : f₁.program = f.program := by
          rw [← hf₁, note_program, foldl_unclosed_program]
        have hacc₁ : Accounted 0 f f₁ := by
          obtain ⟨log, hlog⟩ := foldl_unclosed_eq (f := f) body.unclosed
          rw [← hf₁, hlog]
          exact Accounted.of_fields rfl rfl
        generalize hd : (⟨signatureHeader t n c, body.block⟩ : FunctionDefinition) = d
        refine ⟨fun g h => ?_, fun e g h => ?_⟩
        · obtain ⟨f₂, hrec, h⟩ := bind_eq_ok h
          obtain ⟨hprog₂, hacc₂⟩ := record_overwrite hpol hrec
          obtain ⟨hok, -⟩ := @scan_overwrite hpol body.rest.1 f₂
          obtain ⟨hnone, hprog, hacc⟩ := hok g h
          have hnames : ∀ name, name ∈ f₂.program.names ↔ name ∈ d.name :: f.program.names := by
            intro name
            rw [hprog₂, Program.mem_names_insert_overwrite, List.mem_cons, hprog₁]
          refine ⟨hnone, ?_, fun hs => ?_⟩
          · rw [hprog, hprog₂, hprog₁]
            rfl
          · -- the definition itself, then the definitions after its body
            rw [repeatCount, ← repeatCount_congr hnames, ← hprog₁]
            simpa using hacc₁.trans ((hacc₂ hs).trans (hacc hs))
        · rcases bind_eq_error h with hrec | ⟨f₂, -, h⟩
          · -- the overwrite policy refuses nothing
            obtain ⟨p', hins, -, -⟩ := record_error hrec
            rw [hpol] at hins
            exact absurd (congrArg Prod.fst hins) (Program.insert_overwrite_fst_ne_rejected _)
          · exact (@scan_overwrite hpol body.rest.1 f₂).2 e g h
termination_by ts.length
decreasing_by
  all_goals subst_vars
  all_goals simp only [List.length_cons]
  all_goals omega

end Runs

/-! ## The limit on kept diagnostics -/

section Limit

variable {r : Run} {f : Findings}

theorem skipped_of_strict (hs : r.settings.mode.isStrict = true) (message : String) (at_ : Token) :
    skipped r f message at_ = f.report ⟨"W040", message, at_.location, at_.span⟩ := by
  simp [skipped, hs]

/-- A report fills the kept diagnostics up to the limit, and a report that is no redefinition
    warning keeps their count. -/
theorem report_size_redefinitionWarnings (d : Diagnostic) (hd : d.code ≠ "W042") :
    min (f.diagnostics.size + 1) Limits.standard.maxDiagnostics ≤ (f.report d).diagnostics.size ∧
      (f.report d).redefinitionWarnings = f.redefinitionWarnings := by
  unfold Findings.redefinitionWarnings
  rcases f.report_eq d with ⟨h, hfull⟩ | ⟨h, -⟩ <;> rw [h]
  · exact ⟨by dsimp only; omega, rfl⟩
  · refine ⟨by simp only [Array.size_push]; exact Nat.min_le_left _ _, ?_⟩
    simp [Array.toList_push, List.countP_append, hd]

/-- Strict skips of the tokens of `pre`, in order, fill the kept diagnostics by one each up to the
    limit and keep the redefinition warnings as they were. -/
theorem foldl_skipped_strict (hs : r.settings.mode.isStrict = true) (message : Token → String)
    (pre : List Token) (f : Findings) :
    min (f.diagnostics.size + pre.length) Limits.standard.maxDiagnostics ≤
        (pre.foldl (fun f t => skipped r f (message t) t) f).diagnostics.size ∧
      (pre.foldl (fun f t => skipped r f (message t) t) f).redefinitionWarnings =
        f.redefinitionWarnings := by
  induction pre generalizing f with
  | nil => exact ⟨Nat.min_le_left _ _, rfl⟩
  | cons t pre ih =>
    rw [List.foldl_cons, skipped_of_strict hs]
    obtain ⟨hsize, hcount⟩ := report_size_redefinitionWarnings (f := f)
      ⟨"W040", message t, t.location, t.span⟩ (by show "W040" ≠ "W042"; decide)
    obtain ⟨ih₁, ih₂⟩ := ih (f.report ⟨"W040", message t, t.location, t.span⟩)
    refine ⟨?_, by rw [ih₂, hcount]⟩
    simp only [List.length_cons] at ih₁ ⊢
    omega

theorem lead_of_kind_ne_identifier {t n : Token} {more : List Token}
    (hn : n.kind ≠ .identifier) :
    lead t (n :: more) =
      .skip ("Data type '" ++ t.text ++ "' does not start a function definition") t (n :: more) := by
  cases more with
  | nil => rfl
  | cons p afterParen => simp [lead, hn]

/-- What follows a `dataType` of a run of them, before another `dataType`, starts with a
    `dataType`, which is no name. -/
theorem lead_dataTypes {t n : Token} {pre more : List Token}
    (hpre : ∀ t ∈ pre, t.kind = .dataType) (hn : n.kind = .dataType) :
    lead t (pre ++ n :: more) = .skip ("Data type '" ++ t.text ++
      "' does not start a function definition") t (pre ++ n :: more) := by
  cases pre with
  | nil => exact lead_of_kind_ne_identifier (by rw [hn]; decide)
  | cons y pre =>
    have hy := hpre y List.mem_cons_self
    exact lead_of_kind_ne_identifier (by rw [hy]; decide)

/-- Before a `dataType`, the scan skips each `dataType` of a run of them. -/
theorem scan_dataTypes {pre more : List Token} {n : Token}
    (hpre : ∀ t ∈ pre, t.kind = .dataType) (hn : n.kind = .dataType) :
    scan r f (pre ++ n :: more) = scan r (pre.foldl (fun f t => skipped r f
        ("Data type '" ++ t.text ++ "' does not start a function definition") t) f) (n :: more) := by
  induction pre generalizing f with
  | nil => rfl
  | cons t pre ih =>
    have hrest : ∀ t' ∈ pre, t'.kind = .dataType := fun t' ht' => hpre t' (List.mem_cons_of_mem _ ht')
    rw [List.cons_append, scan_skip (hpre t List.mem_cons_self) (lead_dataTypes hrest hn),
      List.foldl_cons]
    exact ih hrest

/-- Before a `dataType`, a run of them holds no definition. -/
theorem recognized_dataTypes {strict : Bool} {m : Nat} {fin : Span} {pre more : List Token}
    {n : Token} (hpre : ∀ t ∈ pre, t.kind = .dataType) (hn : n.kind = .dataType) :
    recognized strict m fin (pre ++ n :: more) = recognized strict m fin (n :: more) := by
  induction pre with
  | nil => rfl
  | cons t pre ih =>
    have hrest : ∀ t' ∈ pre, t'.kind = .dataType := fun t' ht' => hpre t' (List.mem_cons_of_mem _ ht')
    rw [List.cons_append, recognized_skip (hpre t List.mem_cons_self) (lead_dataTypes hrest hn)]
    exact ih hrest

/-- A body whose first token is a `}` is closed there. -/
theorem enter_closing {strict : Bool} {m : Nat} {fin : Span} {o k : Token} {more : List Token}
    (hm : 0 < m) (hk : k.kind = .closingCurlyBrace) :
    ∃ b : Body (k :: more), Body.enter strict m fin 0 o (k :: more) = .ok b ∧ b.rest.1 = more := by
  have hbrace : isBrace k = true := by simp [isBrace, hk]
  unfold Body.enter
  rw [if_neg (by omega), Body.items]
  split
  · next h => simp [hbrace] at h
  · next t rest h =>
    simp only [List.dropWhile_cons, hbrace, Bool.not_true, Bool.false_eq_true, if_false,
      List.cons.injEq] at h
    obtain ⟨rfl, rfl⟩ := h
    rw [if_pos hk]
    exact ⟨_, rfl, rfl⟩

/-- A signature with an empty body is recognized as a definition of its name. -/
theorem recognized_definition {strict : Bool} {m : Nat} {fin : Span} {t n p c o k : Token}
    {more : List Token} (hm : 0 < m) (ht : t.kind = .dataType) (hn : n.kind = .identifier)
    (hp : p.kind = .openingParenthesis) (hc : c.kind = .closingParenthesis)
    (ho : o.kind = .openingCurlyBrace) (hk : k.kind = .closingCurlyBrace) :
    ∃ d : FunctionDefinition, d.name = n.text ∧
      recognized strict m fin (t :: n :: p :: c :: o :: k :: more) =
        (d :: (recognized strict m fin more).1, (recognized strict m fin more).2) := by
  have hl : lead t (n :: p :: c :: o :: k :: more) = .signature n p c o (k :: more) :=
    lead_eq_signature_iff.2 ⟨rfl, hn, hp, hc, ho⟩
  obtain ⟨b, hb, hrest⟩ : ∃ b : Body (k :: more),
      Body.enter strict m fin 0 o (k :: more) = .ok b ∧ b.rest.1 = more := enter_closing hm hk
  refine ⟨⟨signatureHeader t n c, b.block⟩, rfl, ?_⟩
  rw [recognized_body_ok ht hl hb, hrest]

end Limit

end Analysis

namespace TokenStream

/-- The tokens laid out have the kinds and texts they were given. -/
theorem map_kind_text_layout (file : String) (items : List (TokenKind × String)) :
    (layout file items).map (fun t => (t.kind, t.text)) = items := by
  unfold layout
  -- every step of the layout pushes one token of the item's kind and text
  suffices h : ∀ (items : List (TokenKind × String)) (acc : Position × Array Token),
      ((items.foldl (fun (acc : Position × Array Token) (item : TokenKind × String) =>
        let start := if acc.2.isEmpty then acc.1 else acc.1.advance ' '
        let stop := start.advanceStr item.2
        (stop, acc.2.push (Token.make item.1 item.2 file ⟨start, stop⟩))) acc).2.toList.map
          fun t => (t.kind, t.text)) = acc.2.toList.map (fun t => (t.kind, t.text)) ++ items by
    simpa using h items (Position.start, #[])
  intro items
  induction items with
  | nil => simp
  | cons item items ih =>
    intro acc
    rw [List.foldl_cons, ih]
    simp [Token.make]

end TokenStream

namespace Analysis

/-- Tokens of the kinds and texts of `int NAME ( ) { }` are such a definition. -/
theorem exists_definition_of_map {l : List Token} {name : String}
    {more : List (TokenKind × String)}
    (h : l.map (fun t => (t.kind, t.text)) = (.dataType, "int") :: (.identifier, name) ::
      (.openingParenthesis, "(") :: (.closingParenthesis, ")") :: (.openingCurlyBrace, "\x7b") ::
        (.closingCurlyBrace, "\x7d") :: more) :
    ∃ t n p c o k rest, l = t :: n :: p :: c :: o :: k :: rest ∧ t.kind = .dataType ∧
      n.kind = .identifier ∧ n.text = name ∧ p.kind = .openingParenthesis ∧
      c.kind = .closingParenthesis ∧ o.kind = .openingCurlyBrace ∧
      k.kind = .closingCurlyBrace ∧ rest.map (fun t => (t.kind, t.text)) = more := by
  rcases l with _ | ⟨t, _ | ⟨n, _ | ⟨p, _ | ⟨c, _ | ⟨o, _ | ⟨k, rest⟩⟩⟩⟩⟩⟩ <;>
    simp only [List.map_cons, List.map_nil, List.cons.injEq, Prod.mk.injEq, reduceCtorEq,
      and_false] at h
  obtain ⟨⟨ht, -⟩, ⟨hn, hname⟩, ⟨hp, -⟩, ⟨hc, -⟩, ⟨ho, -⟩, ⟨hk, -⟩, hrest⟩ := h
  exact ⟨t, n, p, c, o, k, rest, rfl, ht, hn, hname, hp, hc, ho, hk, hrest⟩

/-! ## The two analyses -/

theorem Findings.redefinitionWarnings_eq_zero {f : Findings}
    (h : ∀ d ∈ f.diagnostics.toList, d.code = "E040") : f.redefinitionWarnings = 0 :=
  List.countP_eq_zero.2 fun d hd => by simp [h d hd]

/-- Two analyses whose settings differ in nothing the findings at the start read, and whose
    scans agree from findings with no program, are the same analysis. -/
theorem analyzeTokens_eq_of_scan {s₁ s₂ : AnalysisSettings} {ts : List Token}
    (hmode : s₁.mode = s₂.mode)
    (h : ∀ file f, f.program = {} →
      scan ⟨s₁, file, endSpanOf ts⟩ f ts = scan ⟨s₂, file, endSpanOf ts⟩ f ts) :
    analyzeTokens s₁ ts = analyzeTokens s₂ ts := by
  unfold analyzeTokens
  dsimp only
  rw [hmode, h _ _ ?_]
  -- the findings at the start hold no program
  split
  · split <;> simp
  · rfl

/-- The reject and the overwrite analysis of the same tokens.  When the recognized definitions
    have pairwise distinct names the two analyses are the same.  When a name repeats, the reject
    analysis fails at the first definition that repeats a name recognized before it, naming it
    with its header span merged with its body span.  The overwrite analysis succeeds exactly when
    no body reading fails, and then maps every name to its last recognized definition; in strict
    mode it keeps at most one redefinition warning per definition that replaced another, and
    counts as dropped each such warning it did not keep.  A refused insertion leaves the program
    as it was. -/
theorem analyzeTokens_policies (s : AnalysisSettings) (ts : List Token) :
    (((recognized s.mode.isStrict s.maxDepth (endSpanOf ts) ts).1.map
        FunctionDefinition.name).Nodup →
      analyzeTokens { s with policy := .reject } ts =
        analyzeTokens { s with policy := .overwrite } ts) ∧
    (∀ pre d post, (recognized s.mode.isStrict s.maxDepth (endSpanOf ts) ts).1 = pre ++ d :: post →
      (pre.map FunctionDefinition.name).Nodup → d.name ∈ pre.map FunctionDefinition.name →
      ∃ hs bs, d.header.span = some hs ∧ d.body.span = some bs ∧
        (analyzeTokens { s with policy := .reject } ts).result =
          .error (.duplicateFunction d.name (hs.merge bs))) ∧
    ((∃ res, (analyzeTokens { s with policy := .overwrite } ts).result = .ok res) ↔
      (recognized s.mode.isStrict s.maxDepth (endSpanOf ts) ts).2 = none) ∧
    (∀ res, (analyzeTokens { s with policy := .overwrite } ts).result = .ok res →
      (∀ name, res.program.get? name =
        (recognized s.mode.isStrict s.maxDepth (endSpanOf ts) ts).1.reverse.find?
          (·.name == name)) ∧
      (s.mode = .strict →
        res.diagnostics.countP (·.code == "W042") ≤
          repeatCount [] (recognized s.mode.isStrict s.maxDepth (endSpanOf ts) ts).1 ∧
        repeatCount [] (recognized s.mode.isStrict s.maxDepth (endSpanOf ts) ts).1 ≤
          res.diagnostics.countP (·.code == "W042") + res.dropped)) ∧
    (∀ (p : Program) (d : FunctionDefinition) (policy : DuplicatePolicy) (d' : FunctionDefinition),
      (p.insert d policy).1 = .rejected d' → (p.insert d policy).2 = p) := by
  obtain ⟨fileR, fR, hprogR, -, -, -, -, herrR⟩ :=
    analyzeTokens_result { s with policy := .reject } ts
  obtain ⟨fileO, fO, hprogO, hdropO, hcodesO, -, hokO, herrO⟩ :=
    analyzeTokens_result { s with policy := .overwrite } ts
  have hnamesR : fR.program.names = [] := by rw [hprogR]; rfl
  have hnamesO : fO.program.names = [] := by rw [hprogO]; rfl
  obtain ⟨-, hrepeat⟩ := @scan_reject ⟨{ s with policy := .reject }, fileR, endSpanOf ts⟩ rfl ts fR
  obtain ⟨hok, herr⟩ := @scan_overwrite ⟨{ s with policy := .overwrite }, fileO, endSpanOf ts⟩
    rfl ts fO
  refine ⟨fun hnodup => ?_, fun pre d post hds hnodup hrep => ?_, ⟨fun hres => ?_, fun hnone => ?_⟩,
    fun res hres => ?_, fun p d policy d' h => Program.insert_snd_of_rejected h⟩
  · -- distinct names: no definition is refused, so the reject scan is the overwrite scan
    refine analyzeTokens_eq_of_scan rfl fun file f hf => ?_
    refine (@scan_reject ⟨{ s with policy := .reject }, file, endSpanOf ts⟩ rfl ts f).1 ?_
    rw [hf]
    exact firstRepeat?_eq_none hnodup fun _ _ h => by cases h
  · -- the first repetition is refused, with the span of the whole definition
    obtain ⟨hs, bs, hhs, hbs⟩ := recognized_spans (hds ▸ List.mem_append_right pre List.mem_cons_self)
    have hfirst : firstRepeat? fR.program.names
        (recognized s.mode.isStrict s.maxDepth (endSpanOf ts) ts).1 = some d := by
      rw [hnamesR, hds]
      exact firstRepeat?_eq_some hnodup (fun _ _ h => by cases h) (.inl hrep)
    obtain ⟨g, hg⟩ := hrepeat d hfirst
    have hspan : d.span?.getD Span.dummy = hs.merge bs := by
      simp [FunctionDefinition.span?, hhs, hbs]
    rw [hspan] at hg
    exact ⟨hs, bs, hhs, hbs, herrR _ g hg⟩
  · -- an overwrite analysis that succeeds had a scan that succeeds
    obtain ⟨res, hres⟩ := hres
    cases hscan : scan ⟨{ s with policy := .overwrite }, fileO, endSpanOf ts⟩ fO ts with
    | ok g => exact (hok g hscan).1
    | error eg =>
      rw [herrO eg.1 eg.2 hscan] at hres
      cases hres
  · cases hscan : scan ⟨{ s with policy := .overwrite }, fileO, endSpanOf ts⟩ fO ts with
    | ok g => exact ⟨_, hokO g hscan⟩
    | error eg =>
      have := herr eg.1 eg.2 hscan
      rw [hnone] at this
      cases this
  · cases hscan : scan ⟨{ s with policy := .overwrite }, fileO, endSpanOf ts⟩ fO ts with
    | error eg =>
      rw [herrO eg.1 eg.2 hscan] at hres
      cases hres
    | ok g =>
      rw [hokO g hscan] at hres
      cases hres
      obtain ⟨-, hprog, hacc⟩ := hok g hscan
      refine ⟨fun name => ?_, fun hs => ?_⟩
      · show g.program.get? name = _
        have hempty : ({} : Program).get? name = none := rfl
        rw [hprog, Program.get?_overwriteAll, hprogO, hempty, Option.or_none]
      · have hw := hacc (by rw [hs]; rfl)
        rw [hnamesO] at hw
        have h0 := Findings.redefinitionWarnings_eq_zero hcodesO
        unfold Accounted Findings.redefinitionWarnings at hw
        unfold Findings.redefinitionWarnings at h0
        obtain ⟨hw₁, hw₂, -⟩ := hw
        dsimp only at hw₁ hw₂ ⊢
        exact ⟨by omega, by omega⟩

/-- After a thousand `int` tokens, a strict analysis keeps no warning for a redefinition of `f`:
    the thousand skipped constructs fill the kept diagnostics, and the warning is only counted as
    dropped. -/
theorem redefinition_warning_dropped_past_limit :
    let ts := TokenStream.layout "<builder>" (List.replicate 1000 (.dataType, "int") ++
      [(.dataType, "int"), (.identifier, "f"), (.openingParenthesis, "("),
        (.closingParenthesis, ")"), (.openingCurlyBrace, "\x7b"), (.closingCurlyBrace, "\x7d"),
        (.dataType, "int"), (.identifier, "f"), (.openingParenthesis, "("),
        (.closingParenthesis, ")"), (.openingCurlyBrace, "\x7b"), (.closingCurlyBrace, "\x7d")])
    ∃ res, (analyzeTokens { mode := .strict } ts).result = .ok res ∧
      repeatCount [] (recognized true Limits.standard.maxBlockDepth (endSpanOf ts) ts).1 = 1 ∧
      res.diagnostics.countP (·.code == "W042") = 0 := by
  intro ts
  -- the tokens: a thousand lone `int`s, then two definitions of `f` with empty bodies
  have hmap := TokenStream.map_kind_text_layout "<builder>" (List.replicate 1000
    ((.dataType, "int") : TokenKind × String) ++
      [(.dataType, "int"), (.identifier, "f"), (.openingParenthesis, "("),
        (.closingParenthesis, ")"), (.openingCurlyBrace, "\x7b"), (.closingCurlyBrace, "\x7d"),
        (.dataType, "int"), (.identifier, "f"), (.openingParenthesis, "("),
        (.closingParenthesis, ")"), (.openingCurlyBrace, "\x7b"), (.closingCurlyBrace, "\x7d")])
  change ts.map _ = _ at hmap
  clear_value ts
  have hlen : ts.length = 1012 := by
    have := congrArg List.length hmap
    simp only [List.length_map, List.length_append, List.length_replicate, List.length_cons,
      List.length_nil] at this
    exact this
  rw [← List.take_append_drop 1000 ts, List.map_append] at hmap
  obtain ⟨hpre, htail⟩ := List.append_inj hmap (by
    simp only [List.length_map, List.length_take, List.length_replicate, hlen]
    rfl)
  have hlone : ∀ t ∈ ts.take 1000, t.kind = .dataType := fun t ht => by
    have hmem := List.mem_map_of_mem (f := fun t => (t.kind, t.text)) ht
    rw [hpre, List.mem_replicate] at hmem
    exact congrArg Prod.fst hmem.2
  have hprelen : (ts.take 1000).length = 1000 := by
    simp only [List.length_take, hlen]
    rfl
  obtain ⟨t₁, n₁, p₁, c₁, o₁, k₁, rest₁, hdrop, ht₁, hn₁, hname₁, hp₁, hc₁, ho₁, hk₁, hrest₁⟩ :=
    exists_definition_of_map htail
  obtain ⟨t₂, n₂, p₂, c₂, o₂, k₂, rest₂, hrest, ht₂, hn₂, hname₂, hp₂, hc₂, ho₂, hk₂, hnil⟩ :=
    exists_definition_of_map hrest₁
  rw [List.map_eq_nil_iff] at hnil
  subst hrest hnil
  have hts := List.take_append_drop 1000 ts
  rw [hdrop] at hts
  generalize ts.take 1000 = pre at hlone hprelen hts
  -- what the scan recognizes: the two definitions, the second repeating the first one's name
  have hrecog : ∀ fin, ∃ d₁ d₂ : FunctionDefinition, d₁.name = "f" ∧ d₂.name = "f" ∧
      recognized true Limits.standard.maxBlockDepth fin ts = ([d₁, d₂], none) := by
    intro fin
    have hdepth : 0 < Limits.standard.maxBlockDepth := by decide
    obtain ⟨d₂, hd₂, hrec₂⟩ : ∃ d : FunctionDefinition, d.name = n₂.text ∧
        recognized true Limits.standard.maxBlockDepth fin [t₂, n₂, p₂, c₂, o₂, k₂] =
          (d :: (recognized true Limits.standard.maxBlockDepth fin []).1,
            (recognized true Limits.standard.maxBlockDepth fin []).2) :=
      recognized_definition hdepth ht₂ hn₂ hp₂ hc₂ ho₂ hk₂
    obtain ⟨d₁, hd₁, hrec₁⟩ : ∃ d : FunctionDefinition, d.name = n₁.text ∧
        recognized true Limits.standard.maxBlockDepth fin
            [t₁, n₁, p₁, c₁, o₁, k₁, t₂, n₂, p₂, c₂, o₂, k₂] =
          (d :: (recognized true Limits.standard.maxBlockDepth fin [t₂, n₂, p₂, c₂, o₂, k₂]).1,
            (recognized true Limits.standard.maxBlockDepth fin [t₂, n₂, p₂, c₂, o₂, k₂]).2) :=
      recognized_definition hdepth ht₁ hn₁ hp₁ hc₁ ho₁ hk₁
    rw [hrec₂, recognized_nil] at hrec₁
    refine ⟨d₁, d₂, hd₁.trans hname₁, hd₂.trans hname₂, ?_⟩
    rw [← hts, recognized_dataTypes hlone ht₁, hrec₁]
  obtain ⟨d₁, d₂, hd₁, hd₂, hrec⟩ := hrecog (endSpanOf ts)
  have hrepeat : repeatCount [] [d₁, d₂] = 1 := by simp [repeatCount, hd₁, hd₂]
  have hscan : ∀ (r : Run) (f : Findings), scan r f ts = scan r (pre.foldl (fun f t => skipped r f
      ("Data type '" ++ t.text ++ "' does not start a function definition") t) f)
      [t₁, n₁, p₁, c₁, o₁, k₁, t₂, n₂, p₂, c₂, o₂, k₂] := by
    intro r f
    rw [← hts]
    exact scan_dataTypes hlone ht₁
  have hrecTail : ∀ fin, recognized true Limits.standard.maxBlockDepth fin
      [t₁, n₁, p₁, c₁, o₁, k₁, t₂, n₂, p₂, c₂, o₂, k₂] =
        recognized true Limits.standard.maxBlockDepth fin ts := by
    intro fin
    rw [← hts, recognized_dataTypes hlone ht₁]
  -- the analysis: the thousand skips fill the kept diagnostics, so nothing is kept after them
  obtain ⟨file, f₀, -, -, hcodes₀, -, hok₀, -⟩ := analyzeTokens_result { mode := .strict } ts
  have hs : (⟨{ mode := .strict }, file, endSpanOf ts⟩ : Run).settings.mode.isStrict = true := rfl
  obtain ⟨hsize, hcount⟩ := foldl_skipped_strict hs
    (fun t => "Data type '" ++ t.text ++ "' does not start a function definition") pre f₀
  rw [hscan] at hok₀
  generalize pre.foldl (fun f t => skipped ⟨{ mode := .strict }, file, endSpanOf ts⟩ f
    ("Data type '" ++ t.text ++ "' does not start a function definition") t) f₀ = f₁
    at hsize hcount hok₀
  have hfull : Limits.standard.maxDiagnostics ≤ f₁.diagnostics.size := by
    rw [hprelen] at hsize
    have hmax : Limits.standard.maxDiagnostics = 1000 := rfl
    omega
  obtain ⟨hok, herr⟩ := @scan_overwrite ⟨{ mode := .strict }, file, endSpanOf ts⟩ rfl
    [t₁, n₁, p₁, c₁, o₁, k₁, t₂, n₂, p₂, c₂, o₂, k₂] f₁
  cases hres : scan ⟨{ mode := .strict }, file, endSpanOf ts⟩ f₁
      [t₁, n₁, p₁, c₁, o₁, k₁, t₂, n₂, p₂, c₂, o₂, k₂] with
  | error eg =>
    -- no body reading fails here
    have hnone : (recognized true Limits.standard.maxBlockDepth (endSpanOf ts)
        [t₁, n₁, p₁, c₁, o₁, k₁, t₂, n₂, p₂, c₂, o₂, k₂]).2 = some eg.1 := herr eg.1 eg.2 hres
    rw [hrecTail, hrec] at hnone
    cases hnone
  | ok g =>
    obtain ⟨-, -, hacc⟩ := hok g hres
    have hdiag : g.diagnostics = f₁.diagnostics := (hacc hs).2.2 hfull
    refine ⟨_, hok₀ g hres, by rw [hrec]; exact hrepeat, ?_⟩
    show g.redefinitionWarnings = 0
    rw [Findings.redefinitionWarnings, hdiag, ← Findings.redefinitionWarnings, hcount]
    exact Findings.redefinitionWarnings_eq_zero hcodes₀

end Analysis

end COutline
