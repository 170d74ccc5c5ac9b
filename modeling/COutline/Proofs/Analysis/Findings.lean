import Mathlib.Data.List.Forall2
import COutline.Proofs.Analysis.Occurrences
import COutline.Proofs.Analysis.Policies

/-!
# What a strict analysis reports

In strict mode the findings of an analysis are read off the tokens alone.  A `dataType` token
that the top-level scan reaches, outside every body of an earlier definition, and that starts no
definition is a skipped construct (`SkippedAt`): it is reported as a `W040` at the name after it
when `NAME (` follows, else at itself (`skipSite`).  A definition whose name an earlier
definition has is a replacement (`RedefinedAt`), reported as a `W042`.  The findings come in
stream order; the first `Limits.standard.maxDiagnostics` of them are kept and the rest only
counted (`Keeps`).

`scan_reports` carries the findings before the scan's position along the scan, beside `Found`,
one lemma per kind of step; `analyzeTokens_strict_findings` reads them off a successful strict
analysis under either duplicate policy.
-/

namespace COutline

namespace Analysis

/-! ## The findings of a token sequence -/

/-- The token a construct skipped at `i` is reported at: the name after the `dataType` when
    `NAME (` follows it, else the `dataType` itself. -/
def skipSite (ts : List Token) (i : Nat) : Option Token :=
  match ts.drop i with
  | t :: n :: p :: _ =>
    some (if n.kind = .identifier ∧ p.kind = .openingParenthesis then n else t)
  | t :: _ => some t
  | [] => none

/-- A `dataType` at `i` that lies outside the body of every earlier definition and starts no
    definition itself. -/
def SkippedAt (ts : List Token) (i : Nat) : Prop :=
  (∃ t, ts[i]? = some t ∧ t.kind = .dataType) ∧
    (∀ j, j < i → IsOccurrence ts j → bodyEnd ts j ≤ i) ∧ ¬ IsOccurrence ts i

/-- A definition at `i` whose name an earlier definition has. -/
def RedefinedAt (ts : List Token) (i : Nat) : Prop :=
  IsOccurrence ts i ∧
    ∃ j, j < i ∧ IsOccurrence ts j ∧ ts[j + 1]?.map (·.text) = ts[i + 1]?.map (·.text)

/-- Something a strict analysis reports at index `i`. -/
def FindingAt (ts : List Token) (i : Nat) : Prop := SkippedAt ts i ∨ RedefinedAt ts i

/-- The diagnostic `d` reports the finding at `i`: a skipped construct as a `W040` located at
    its site, a replacement as a `W042`. -/
def Reports (ts : List Token) (d : Diagnostic) (i : Nat) : Prop :=
  (SkippedAt ts i ∧ d.code = "W040" ∧
    ∃ t, skipSite ts i = some t ∧ d.location = t.location ∧ d.span = t.span) ∨
  (RedefinedAt ts i ∧ d.code = "W042")

section Sites

variable {ts : List Token} {i k : Nat}

theorem not_findingAt_of_getElem? {t : Token} (ht : ts[i]? = some t)
    (hkind : t.kind ≠ .dataType) : ¬ FindingAt ts i := by
  rintro (⟨⟨t', ht', hkind'⟩, -, -⟩ | ⟨hocc, -⟩)
  · rw [ht] at ht'
    cases ht'
    exact hkind hkind'
  · exact not_isOccurrence_of_getElem? ht hkind hocc

/-- Nothing is reported inside the signature or the body of a definition. -/
theorem not_findingAt_inside {t n p c o : Token} {inBody : List Token}
    (hk : IsOccurrence ts k) (hd : ts.drop k = t :: n :: p :: c :: o :: inBody)
    (hi : k < i) (hi' : i < bodyEnd ts k) : ¬ FindingAt ts i := by
  rintro (⟨-, hreached, -⟩ | ⟨hocc, -⟩)
  · have := hreached k hi hk
    omega
  · exact not_isOccurrence_inside hk hd hi hi' hocc

/-- A construct the scan gives up on is reported at the token `lead` names. -/
theorem skipSite_of_lead {t at_ : Token} {rest rest' : List Token} {message : String}
    (hd : ts.drop k = t :: rest) (h : lead t rest = .skip message at_ rest') :
    skipSite ts k = some at_ := by
  unfold skipSite
  rw [hd]
  rcases rest with _ | ⟨n, _ | ⟨p, afterParen⟩⟩
  · simp only [lead, Lead.skip.injEq] at h
    rw [h.2.1]
  · simp only [lead, Lead.skip.injEq] at h
    rw [h.2.1]
  dsimp only
  by_cases hnp : n.kind = .identifier ∧ p.kind = .openingParenthesis
  case neg =>
    simp only [lead, if_neg hnp, Lead.skip.injEq] at h
    rw [if_neg hnp, h.2.1]
  -- past `NAME (` every way of giving up is reported at the name
  rw [if_pos hnp]
  unfold lead at h
  dsimp only at h
  rw [if_pos hnp] at h
  split at h
  · split at h
    · split at h
      · split at h
        · cases h
        · simp only [Lead.skip.injEq] at h
          rw [h.2.1]
      · simp only [Lead.skip.injEq] at h
        rw [h.2.1]
    · simp only [Lead.skip.injEq] at h
      rw [h.2.1]
  · simp only [Lead.skip.injEq] at h
    rw [h.2.1]

/-- A construct the scan gives up on takes tokens where no definition starts and, after its
    `dataType`, no finding. -/
theorem lead_skip_findings {t at_ : Token} {rest rest' : List Token} {message : String}
    (hd : ts.drop k = t :: rest) (h : lead t rest = .skip message at_ rest') :
    ∃ k', k < k' ∧ k' ≤ ts.length ∧ ts.drop k' = rest' ∧
      (∀ j, k ≤ j → j < k' → ¬ IsOccurrence ts j) ∧
      ∀ j, k < j → j < k' → ¬ FindingAt ts j := by
  obtain ⟨k', hkk', hlen, hdrop, hnone⟩ := lead_skip_advance hd h
  obtain ⟨pre, hsplit, hpre⟩ := lead_eq_skip h
  have hrest : ts.drop (k + 1) = pre ++ rest' := by
    rw [← List.drop_drop, hd, ← hsplit]
    rfl
  -- `k'` is where `rest'` starts, right after the tokens of `pre`
  have hk' : k' = k + 1 + pre.length := by
    have h₁ := congrArg List.length hrest
    have h₂ := congrArg List.length hdrop
    simp only [List.length_drop, List.length_append] at h₁ h₂
    omega
  refine ⟨k', hkk', hlen, hdrop, hnone, fun j hj hj' => ?_⟩
  obtain ⟨m, rfl⟩ : ∃ m, j = k + 1 + m := ⟨j - (k + 1), by omega⟩
  have hm : m < pre.length := by omega
  have hget : ts[k + 1 + m]? = some pre[m] := by
    rw [getElem?_of_drop_eq hrest m, List.getElem?_append_left hm, List.getElem?_eq_getElem hm]
  exact not_findingAt_of_getElem? hget (hpre _ (List.getElem_mem hm))

end Sites

/-! ## Kept and dropped findings -/

/-- The kept diagnostics of `f` report the first `Limits.standard.maxDiagnostics` findings of
    `xs`, in order, and every later one is counted as dropped. -/
def Keeps {α : Type} (P : Diagnostic → α → Prop) (f : Findings) (xs : List α) : Prop :=
  List.Forall₂ P f.diagnostics.toList (xs.take Limits.standard.maxDiagnostics) ∧
    f.dropped = xs.length - min xs.length Limits.standard.maxDiagnostics

namespace Keeps

variable {α : Type} {P : Diagnostic → α → Prop} {f g : Findings} {xs : List α}

theorem nil (hd : f.diagnostics = #[]) (hdr : f.dropped = 0) : Keeps P f [] := by
  unfold Keeps
  rw [hd, hdr]
  exact ⟨.nil, rfl⟩

theorem of_fields (h : Keeps P f xs) (hd : g.diagnostics = f.diagnostics)
    (hdr : g.dropped = f.dropped) : Keeps P g xs := by
  unfold Keeps
  rw [hd, hdr]
  exact h

/-- Reporting one more finding keeps it while there is room, and counts it as dropped after. -/
theorem report {d : Diagnostic} {x : α} (h : Keeps P f xs) (hd : P d x) :
    Keeps P (f.report d) (xs ++ [x]) := by
  obtain ⟨hall, hdrop⟩ := h
  have hsize : f.diagnostics.size = min xs.length Limits.standard.maxDiagnostics := by
    have hlen := hall.length_eq
    simp only [Array.length_toList, List.length_take] at hlen
    omega
  rcases f.report_eq d with ⟨hr, hfull⟩ | ⟨hr, hroom⟩ <;> rw [hr]
  · -- the kept diagnostics are full: the finding is only counted
    have hge : Limits.standard.maxDiagnostics ≤ xs.length := by omega
    refine ⟨by rw [List.take_append_of_le_length hge]; exact hall, ?_⟩
    simp only [List.length_append, List.length_singleton]
    omega
  · have hlt : xs.length < Limits.standard.maxDiagnostics := by omega
    have htake : xs.take Limits.standard.maxDiagnostics = xs := List.take_of_length_le (by omega)
    rw [htake] at hall
    refine ⟨?_, ?_⟩
    · rw [List.take_of_length_le (by simp only [List.length_append, List.length_singleton]; omega),
        Array.toList_push]
      exact List.rel_append hall (.cons hd .nil)
    · simp only [List.length_append, List.length_singleton]
      omega

end Keeps

/-! ## The findings before a position -/

/-- `sites` lists, in increasing order, the findings before index `k`. -/
structure Listed (ts : List Token) (k : Nat) (sites : List Nat) : Prop where
  sorted : sites.Pairwise (· < ·)
  mem : ∀ i, i ∈ sites ↔ i < k ∧ FindingAt ts i

namespace Listed

variable {ts : List Token} {k k' : Nat} {sites : List Nat}

theorem start : Listed ts 0 [] := ⟨.nil, fun i => by simp⟩

/-- Passing over indices that hold no finding lists nothing more. -/
theorem advance (h : Listed ts k sites) (hk : k ≤ k')
    (hnone : ∀ i, k ≤ i → i < k' → ¬ FindingAt ts i) : Listed ts k' sites := by
  refine ⟨h.sorted, fun i => ?_⟩
  rw [h.mem i]
  constructor
  · rintro ⟨hi, hf⟩
    exact ⟨by omega, hf⟩
  · rintro ⟨hi, hf⟩
    exact ⟨Nat.lt_of_not_le fun hge => hnone i hge hi hf, hf⟩

/-- A finding at `k`, then indices that hold none, lists `k` last. -/
theorem push (h : Listed ts k sites) (hf : FindingAt ts k) (hk : k < k')
    (hnone : ∀ i, k < i → i < k' → ¬ FindingAt ts i) : Listed ts k' (sites ++ [k]) := by
  refine ⟨List.pairwise_append.2 ⟨h.sorted, List.pairwise_singleton _ _, ?_⟩, fun i => ?_⟩
  · intro a ha b hb
    rw [List.mem_singleton] at hb
    subst hb
    exact ((h.mem a).1 ha).1
  rw [List.mem_append, List.mem_singleton, h.mem i]
  constructor
  · rintro (⟨hi, hfi⟩ | rfl)
    · exact ⟨by omega, hfi⟩
    · exact ⟨hk, hf⟩
  · rintro ⟨hi, hfi⟩
    rcases Nat.lt_trichotomy i k with hlt | heq | hgt
    · exact .inl ⟨hlt, hfi⟩
    · exact .inr heq
    · exact absurd hfi (hnone i hgt hi)

end Listed

theorem FindingAt.lt_length {ts : List Token} {i : Nat} (h : FindingAt ts i) : i < ts.length := by
  rcases h with ⟨⟨t, ht, -⟩, -, -⟩ | ⟨hocc, -⟩
  · exact (List.getElem?_eq_some_iff.1 ht).1
  · exact hocc.lt_length

/-! ## The scan, step by step -/

section Steps

variable {r : Run} {ts : List Token} {k : Nat} {f g : Findings} {sites : List Nat}

/-- Under the overwrite policy in strict mode, recording a name already present reports one
    `W042` and changes the kept and dropped diagnostics in no other way. -/
theorem record_replaced {d : FunctionDefinition} (hpol : r.settings.policy = .overwrite)
    (hs : r.settings.mode.isStrict = true) (hmem : d.name ∈ f.program.names)
    (h : record r f d = .ok g) :
    ∃ (w : Diagnostic) (f' : Findings), g = f'.report w ∧ w.code = "W042" ∧
      f'.diagnostics = f.diagnostics ∧ f'.dropped = f.dropped := by
  unfold record at h
  rw [hpol] at h
  split at h
  · -- a present name is never inserted afresh
    next p' heq =>
    rw [Program.mem_names_iff] at hmem
    unfold Program.insert Program.insertAs at heq
    split at heq <;> simp_all [Program.get?]
  · next previous p' heq =>
    rw [if_pos hs] at h
    cases h
    exact ⟨_, _, rfl, rfl, rfl, rfl⟩
  · cases h

/-- Reading the definition at `k` lists it when it replaces an earlier one of its name, and
    nothing from its signature or body. -/
theorem signature_reports (hpol : r.settings.policy = .overwrite)
    (hs : r.settings.mode.isStrict = true) {t n lp c o : Token} {inBody : List Token}
    {b : Body inBody} {f₁ : Findings} (hf : Found r ts k f.program) (hl : Listed ts k sites)
    (hkeep : Keeps (Reports ts) f sites) (hd : ts.drop k = t :: n :: lp :: c :: o :: inBody)
    (hocc : IsOccurrence ts k) (hrec : record r f₁ ⟨signatureHeader t n c, b.block⟩ = .ok g)
    (hprog : f₁.program = f.program) (hdiag : f₁.diagnostics = f.diagnostics)
    (hdrop : f₁.dropped = f.dropped) :
    ∃ sites', Listed ts (bodyEnd ts k) sites' ∧ Keeps (Reports ts) g sites' := by
  have hname : ts[k + 1]? = some n := getElem?_of_drop_eq hd 1
  have hlt : k < bodyEnd ts k := by
    have := (bodyEnd_le_length hd).1
    omega
  have hnone : ∀ i, k < i → i < bodyEnd ts k → ¬ FindingAt ts i := fun i hi hi' =>
    not_findingAt_inside hocc hd hi hi'
  have hkeep₁ : Keeps (Reports ts) f₁ sites := hkeep.of_fields hdiag hdrop
  -- the definition replaces one exactly when an earlier definition has its name
  have hiff : n.text ∈ f.program.names ↔ RedefinedAt ts k := by
    rw [Program.mem_names_iff, hf.names]
    constructor
    · rintro ⟨j, nm, hj, hoccj, hnm, htext⟩
      exact ⟨hocc, j, hj, hoccj, by rw [hnm, hname]; simp [htext]⟩
    · rintro ⟨-, j, hj, hoccj, htext⟩
      rw [hname] at htext
      obtain ⟨nm, hnm, htext'⟩ := Option.map_eq_some_iff.1 htext
      exact ⟨j, nm, hj, hoccj, hnm, htext'⟩
  by_cases hmem : n.text ∈ f.program.names
  · obtain ⟨w, f', rfl, hw, hdiag', hdrop'⟩ :=
      record_replaced hpol hs (by rw [hprog]; exact hmem) hrec
    exact ⟨sites ++ [k], hl.push (.inr (hiff.1 hmem)) hlt hnone,
      (hkeep₁.of_fields hdiag' hdrop').report (.inr ⟨hiff.1 hmem, hw⟩)⟩
  · rw [record_of_not_mem (by rw [hprog]; exact hmem)] at hrec
    cases hrec
    -- the first definition of a name is no finding
    have hnot : ¬ FindingAt ts k := by
      rintro (⟨-, -, hnocc⟩ | hred)
      · exact hnocc hocc
      · exact hmem (hiff.2 hred)
    refine ⟨sites, hl.advance hlt.le fun i hi hi' => ?_, hkeep₁.of_fields rfl rfl⟩
    rcases Nat.eq_or_lt_of_le hi with rfl | hi
    · exact hnot
    · exact hnone i hi hi'

end Steps

/-! ## Whole runs -/

section Run

variable {r : Run} {ts : List Token}

/-- A successful strict scan under the overwrite policy from the `k`-th token on, with the
    findings before `k` kept or counted, ends with every finding of the tokens kept or counted. -/
theorem scan_reports (hpol : r.settings.policy = .overwrite) (hs : r.settings.mode.isStrict = true)
    {k : Nat} {f g : Findings} {sites : List Nat} (hk : k ≤ ts.length)
    (hf : Found r ts k f.program) (hl : Listed ts k sites) (hkeep : Keeps (Reports ts) f sites)
    (h : scan r f (ts.drop k) = .ok g) :
    ∃ sites', Listed ts ts.length sites' ∧ Keeps (Reports ts) g sites' := by
  cases hd : ts.drop k with
  | nil =>
    rw [hd, scan_nil] at h
    cases h
    have hend : k = ts.length := by
      have := List.drop_eq_nil_iff.1 hd
      omega
    rw [← hend]
    exact ⟨sites, hl, hkeep⟩
  | cons t rest =>
    rw [hd] at h
    have hlt : k < ts.length := by
      have := congrArg List.length hd
      simp only [List.length_drop, List.length_cons] at this
      omega
    have hrest : ts.drop (k + 1) = rest := by
      rw [← List.drop_drop, hd]
      rfl
    have hhead : ts[k]? = some t := getElem?_of_drop_eq hd 0
    by_cases ht : t.kind = .dataType
    case neg =>
      -- a token that is no `dataType` is passed over and reported nowhere
      rw [scan_pass ht, ← hrest] at h
      have hocc : ¬ IsOccurrence ts k := not_isOccurrence_of_getElem? hhead ht
      have hfinding : ¬ FindingAt ts k := not_findingAt_of_getElem? hhead ht
      have honly : ∀ j, k ≤ j → j < k + 1 → j = k := fun j hj hj' => by omega
      exact scan_reports hpol hs hlt
        (hf.advance (Nat.le_succ k) fun j hj hj' => honly j hj hj' ▸ hocc)
        (hl.advance (Nat.le_succ k) fun j hj hj' => honly j hj hj' ▸ hfinding) hkeep h
    cases hlead : lead t rest with
    | skip message at_ rest' =>
      -- a skipped construct is reported at its site, and the tokens it takes hold nothing more
      rw [scan_skip ht hlead, skipped_of_strict hs] at h
      obtain ⟨k', hkk', hlen, hdrop, hnone, hnoneF⟩ := lead_skip_findings hd hlead
      have hskipped : SkippedAt ts k := ⟨⟨t, hhead, ht⟩, hf.bodies, hnone k le_rfl hkk'⟩
      have hreport : Reports ts ⟨"W040", message, at_.location, at_.span⟩ k :=
        .inl ⟨hskipped, rfl, at_, skipSite_of_lead hd hlead, rfl, rfl⟩
      have hf' :
          Found r ts k' (f.report ⟨"W040", message, at_.location, at_.span⟩).program := by
        rw [report_program]
        exact hf.advance (Nat.le_of_lt hkk') hnone
      rw [← hdrop] at h
      exact scan_reports hpol hs hlen hf' (hl.push (.inl hskipped) hkk' hnoneF)
        (hkeep.report hreport) h
    | signature n lp c o inBody =>
      obtain ⟨rfl, hkinds⟩ := lead_eq_signature_iff.1 hlead
      have hsig : ((t :: n :: lp :: c :: o :: inBody).take 5).map Token.kind = signatureKinds :=
        signatureKinds_cons_iff.2 ⟨ht, n, lp, c, o, inBody, rfl, hkinds⟩
      cases hb : Body.enter r.settings.mode.isStrict r.settings.maxDepth r.finish 0 o inBody with
      | error e =>
        rw [scan_body_error ht hlead hb] at h
        cases h
      | ok body =>
        rw [scan_body_ok ht hlead hb] at h
        obtain ⟨f', hrec, h⟩ := bind_eq_ok h
        -- the events noted before recording change no diagnostic
        obtain ⟨log, hlog⟩ := foldl_unclosed_eq (f := f) body.unclosed
        rw [hlog] at hrec
        obtain ⟨hocc, hfound⟩ := hf.signature hd hsig hb
        obtain ⟨sites', hl', hkeep'⟩ :=
          signature_reports hpol hs hf hl hkeep hd hocc hrec rfl rfl rfl
        have hprog : f'.program =
            (f.program.insert ⟨signatureHeader t n c, body.block⟩ .overwrite).2 :=
          (record_overwrite hpol hrec).1
        rw [← hprog] at hfound
        have hdrop : ts.drop (bodyEnd ts k) = body.rest.1 := by
          rw [drop_bodyEnd hd, enter_rest hb]
        have hlen := bodyEnd_le_length hd
        rw [← hdrop] at h
        exact scan_reports hpol hs hlen.2 hfound hl' hkeep' h
termination_by ts.length - k

/-- A strict analysis of no tokens reports only that there is nothing to analyze. -/
theorem analyzeTokens_nil_strict {s : AnalysisSettings} (hs : s.mode = .strict) :
    (analyzeTokens s []).result = .ok ⟨{}, [⟨"E040", "No tokens to analyze",
      Location.ofPosition "<input>" Span.dummy.start, Span.dummy⟩], 0⟩ := by
  unfold analyzeTokens
  simp [hs, AnalysisMode.isStrict, Findings.report, Findings.note, endSpanOf, Limits.standard]

/-- A successful analysis of some tokens is a successful scan of them from findings with no
    program and no diagnostic yet. -/
theorem analyzeTokens_ok_of_ne_nil {s : AnalysisSettings} {res : AnalysisResult} (hne : ts ≠ [])
    (h : (analyzeTokens s ts).result = .ok res) :
    ∃ file f g, f.program = {} ∧ f.diagnostics = #[] ∧ f.dropped = 0 ∧
      scan ⟨s, file, endSpanOf ts⟩ f ts = .ok g ∧
      res = ⟨g.program, g.diagnostics.toList, g.dropped⟩ := by
  unfold analyzeTokens at h
  dsimp only at h
  rw [if_neg (by simpa using hne)] at h
  split at h
  · next g hscan =>
    cases h
    exact ⟨_, _, g, rfl, rfl, rfl, hscan, rfl⟩
  · cases h

/-- A run that already has the overwrite policy is its own overwrite run. -/
theorem Run.withPolicy_self {r : Run} (h : r.settings.policy = .overwrite) :
    r.withPolicy .overwrite = r := by
  rcases r with ⟨⟨mode, policy, maxDepth, logRecognized⟩, file, finish⟩
  dsimp only at h
  subst h
  rfl

end Run

/-- What a successful strict analysis reports, under either duplicate policy.  With no tokens it
    reports a single `E040`.  Otherwise its findings, in stream order, are the `dataType` tokens
    that the top-level scan reaches and that start no definition, each a `W040` at its site, and
    the definitions that replace an earlier one of their name, each a `W042`; the first
    `Limits.standard.maxDiagnostics` of them are kept in order and the rest are counted as
    dropped. -/
theorem analyzeTokens_strict_findings {s : AnalysisSettings} {ts : List Token}
    {res : AnalysisResult} (hs : s.mode = .strict) (h : (analyzeTokens s ts).result = .ok res) :
    (ts = [] → res.diagnostics.map (·.code) = ["E040"] ∧ res.dropped = 0) ∧
    (ts ≠ [] → ∃ sites : List Nat, sites.Pairwise (· < ·) ∧
      (∀ i, i ∈ sites ↔ FindingAt ts i) ∧
      List.Forall₂ (Reports ts) res.diagnostics (sites.take Limits.standard.maxDiagnostics) ∧
      res.dropped = sites.length - min sites.length Limits.standard.maxDiagnostics) := by
  refine ⟨fun hnil => ?_, fun hne => ?_⟩
  · subst hnil
    rw [analyzeTokens_nil_strict hs] at h
    cases h
    exact ⟨rfl, rfl⟩
  obtain ⟨file, f, g, hprog, hdiag, hdrop, hscan, rfl⟩ := analyzeTokens_ok_of_ne_nil hne h
  have hstrict : s.mode.isStrict = true := by rw [hs]; rfl
  -- under the reject policy a successful scan repeats no name, so it is the overwrite scan
  have hover : scan (Run.withPolicy ⟨s, file, endSpanOf ts⟩ .overwrite) f ts = .ok g := by
    cases hpol : s.policy with
    | overwrite => rwa [Run.withPolicy_self hpol]
    | reject =>
      obtain ⟨hsame, hrepeat⟩ := @scan_reject ⟨s, file, endSpanOf ts⟩ hpol ts f
      cases hfirst : firstRepeat? f.program.names
          (recognized s.mode.isStrict s.maxDepth (endSpanOf ts) ts).1 with
      | none => rwa [← hsame hfirst]
      | some d =>
        obtain ⟨g', hg'⟩ := hrepeat d hfirst
        rw [hg'] at hscan
        cases hscan
  have hstart : Found (Run.withPolicy ⟨s, file, endSpanOf ts⟩ .overwrite) ts 0 f.program := by
    rw [hprog]
    exact Found.start
  obtain ⟨sites, hl, hkeep⟩ := scan_reports rfl hstrict (Nat.zero_le _) hstart Listed.start
    (Keeps.nil hdiag hdrop) (by rw [List.drop_zero]; exact hover)
  refine ⟨sites, hl.sorted, fun i => ?_, hkeep.1, hkeep.2⟩
  rw [hl.mem i]
  exact ⟨fun hi => hi.2, fun hi => ⟨hi.lt_length, hi⟩⟩

/-- A lone `int`, then `f` defined twice with an `int` inside the first body: the lone `int` is
    a `W040`, the `int` inside the body is not reached, and the second `f` is a `W042`. -/
theorem analyzeTokens_strict_findings_redefinition :
    let ts := TokenStream.layout "f.c" [(.dataType, "int"), (.punctuator, ";"),
      (.dataType, "int"), (.identifier, "f"), (.openingParenthesis, "("),
      (.closingParenthesis, ")"), (.openingCurlyBrace, "\x7b"), (.dataType, "int"),
      (.closingCurlyBrace, "\x7d"), (.dataType, "int"), (.identifier, "f"),
      (.openingParenthesis, "("), (.closingParenthesis, ")"), (.openingCurlyBrace, "\x7b"),
      (.closingCurlyBrace, "\x7d")]
    ∃ res, ({ mode := .strict } : AnalysisSettings).mode = .strict ∧
      (analyzeTokens { mode := .strict } ts).result = .ok res ∧
      (ts = [] → res.diagnostics.map (·.code) = ["E040"] ∧ res.dropped = 0) ∧
      (ts ≠ [] → ∃ sites : List Nat, sites.Pairwise (· < ·) ∧
        (∀ i, i ∈ sites ↔ FindingAt ts i) ∧
        List.Forall₂ (Reports ts) res.diagnostics (sites.take Limits.standard.maxDiagnostics) ∧
        res.dropped = sites.length - min sites.length Limits.standard.maxDiagnostics) := by
  intro ts
  have hok : (analyzeTokens { mode := .strict } ts).result.toBool = true := by decide +kernel
  cases h : (analyzeTokens { mode := .strict } ts).result with
  | error e => simp [h, Except.toBool] at hok
  | ok res => exact ⟨res, rfl, rfl, analyzeTokens_strict_findings rfl h⟩

end Analysis

end COutline
