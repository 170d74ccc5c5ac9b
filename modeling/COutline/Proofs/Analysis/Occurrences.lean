import COutline.Proofs.Analysis.Scan
import COutline.Proofs.Outline.Program

/-!
# The definitions an analysis finds

A definition starts at every index `i` where the tokens `TYPE NAME ( ) {` begin and that no
body of an earlier such start covers (`IsOccurrence`); a body reaches from its `{` to the `}`
that matches it, or to the end of the tokens.  The occurrences are said here without the scan:
a signature the scan gives up on consumes nothing a later definition needs.

Under the overwrite policy the analysis finds exactly the names of the occurrences, and each
name holds the definition of its last occurrence (`analyzeTokens_occurrences`).  The proof
carries `Found` along the scan: one lemma for the steps that pass over tokens
(`Found.advance`) and one for a recognized definition (`Found.signature`).
-/

namespace COutline

namespace Analysis

/-- The kinds of a signature `TYPE NAME ( ) {`. -/
def signatureKinds : List TokenKind :=
  [.dataType, .identifier, .openingParenthesis, .closingParenthesis, .openingCurlyBrace]

/-- The index just past the body of a signature at `j`: past the `}` that matches its `{`, or
    the end of the tokens when none does. -/
def bodyEnd (ts : List Token) (j : Nat) : Nat :=
  j + 5 + (closingLength 1 (ts.drop (j + 5))).getD (ts.length - (j + 5))

/-- A signature at index `i` that lies inside no body of an earlier one. -/
def IsOccurrence (ts : List Token) (i : Nat) : Prop :=
  ((ts.drop i).take 5).map Token.kind = signatureKinds ∧
    ∀ j (_ : j < i), IsOccurrence ts j → ¬ (j + 4 ≤ i ∧ i < bodyEnd ts j)
termination_by i

section Occurrence

variable {ts : List Token} {i k : Nat}

theorem isOccurrence_iff : IsOccurrence ts i ↔
    ((ts.drop i).take 5).map Token.kind = signatureKinds ∧
      ∀ j, j < i → IsOccurrence ts j → ¬ (j + 4 ≤ i ∧ i < bodyEnd ts j) := by
  rw [IsOccurrence]

/-- The signature kinds at the head of a list, token by token. -/
theorem signatureKinds_cons_iff {t : Token} {rest : List Token} :
    ((t :: rest).take 5).map Token.kind = signatureKinds ↔ t.kind = .dataType ∧
      ∃ n p c o inBody, rest = n :: p :: c :: o :: inBody ∧ n.kind = .identifier ∧
        p.kind = .openingParenthesis ∧ c.kind = .closingParenthesis ∧
          o.kind = .openingCurlyBrace := by
  constructor
  · intro h
    rcases rest with _ | ⟨n, _ | ⟨p, _ | ⟨c, _ | ⟨o, inBody⟩⟩⟩⟩ <;>
      simp [signatureKinds] at h
    exact ⟨h.1, n, p, c, o, inBody, rfl, h.2⟩
  · rintro ⟨ht, n, p, c, o, inBody, rfl, hn, hp, hc, ho⟩
    simp [signatureKinds, ht, hn, hp, hc, ho]

theorem getElem?_of_drop_eq {l : List Token} (h : ts.drop i = l) (j : Nat) :
    ts[i + j]? = l[j]? := by
  rw [← h, List.getElem?_drop]

theorem IsOccurrence.kinds {t : Token} {rest : List Token} (h : IsOccurrence ts i)
    (hd : ts.drop i = t :: rest) : ((t :: rest).take 5).map Token.kind = signatureKinds := by
  rw [← hd]
  exact (isOccurrence_iff.1 h).1

/-- An occurrence starts at a `dataType` token. -/
theorem IsOccurrence.getElem?_kind (h : IsOccurrence ts i) :
    ∃ t, ts[i]? = some t ∧ t.kind = .dataType := by
  cases hd : ts.drop i with
  | nil =>
    have hk := (isOccurrence_iff.1 h).1
    rw [hd] at hk
    simp [signatureKinds] at hk
  | cons t rest =>
    refine ⟨t, by simpa using getElem?_of_drop_eq hd 0, ?_⟩
    exact (signatureKinds_cons_iff.1 (h.kinds hd)).1

theorem not_isOccurrence_of_getElem? {t : Token} (ht : ts[i]? = some t)
    (hkind : t.kind ≠ .dataType) : ¬ IsOccurrence ts i := by
  intro h
  obtain ⟨t', ht', hkind'⟩ := h.getElem?_kind
  rw [ht] at ht'
  cases ht'
  exact hkind hkind'

theorem IsOccurrence.lt_length (h : IsOccurrence ts i) : i < ts.length := by
  obtain ⟨t, ht, -⟩ := h.getElem?_kind
  exact (List.getElem?_eq_some_iff.1 ht).1

/-- Where the scan gives up on a signature, no definition starts. -/
theorem not_isOccurrence_of_lead_skip {t : Token} {rest rest' : List Token} {message : String}
    {at_ : Token} (hd : ts.drop i = t :: rest) (h : lead t rest = .skip message at_ rest') :
    ¬ IsOccurrence ts i := by
  intro hocc
  obtain ⟨-, n, p, c, o, inBody, hrest, hkinds⟩ := signatureKinds_cons_iff.1 (hocc.kinds hd)
  have hsig : lead t rest = .signature n p c o inBody := lead_eq_signature_iff.2 ⟨hrest, hkinds⟩
  rw [h] at hsig
  cases hsig

/-- A construct the scan gives up on takes tokens where no definition starts, and the scan goes
    on right after them. -/
theorem lead_skip_advance {t : Token} {rest rest' : List Token} {message : String} {at_ : Token}
    (hd : ts.drop i = t :: rest) (h : lead t rest = .skip message at_ rest') :
    ∃ i', i < i' ∧ i' ≤ ts.length ∧ ts.drop i' = rest' ∧
      ∀ j, i ≤ j → j < i' → ¬ IsOccurrence ts j := by
  obtain ⟨pre, hsplit, hpre⟩ := lead_eq_skip h
  have hrest : ts.drop (i + 1) = rest := by
    rw [← List.drop_drop, hd]
    rfl
  have hlen : i + 1 + pre.length ≤ ts.length := by
    have hlt := congrArg List.length hd
    have := congrArg List.length hrest
    simp only [List.length_drop, List.length_cons, hsplit, List.length_append] at hlt this
    omega
  refine ⟨i + 1 + pre.length, by omega, hlen, ?_, fun j hj hj' => ?_⟩
  · rw [← List.drop_drop, hrest, hsplit, List.drop_left]
  -- the `dataType` given up on starts no definition, nor does any token taken after it
  rcases Nat.eq_or_lt_of_le hj with rfl | hj
  · exact not_isOccurrence_of_lead_skip hd h
  · obtain ⟨m, rfl⟩ : ∃ m, j = i + 1 + m := ⟨j - (i + 1), by omega⟩
    have hm : m < pre.length := by omega
    have hget : ts[i + 1 + m]? = some pre[m] := by
      rw [getElem?_of_drop_eq hrest m, hsplit, List.getElem?_append_left hm,
        List.getElem?_eq_getElem hm]
    exact not_isOccurrence_of_getElem? hget (hpre _ (List.getElem_mem hm))

theorem drop_body_eq {t n p c o : Token} {inBody : List Token}
    (hd : ts.drop k = t :: n :: p :: c :: o :: inBody) : ts.drop (k + 5) = inBody := by
  rw [← List.drop_drop, hd]
  rfl

theorem bodyEnd_eq {t n p c o : Token} {inBody : List Token}
    (hd : ts.drop k = t :: n :: p :: c :: o :: inBody) :
    bodyEnd ts k = k + 5 + (closingLength 1 inBody).getD inBody.length := by
  have hbody := drop_body_eq hd
  have hlen : ts.length - (k + 5) = inBody.length := by
    rw [← List.length_drop, hbody]
  rw [bodyEnd, hbody, hlen]

/-- A body ends inside the tokens, after its signature. -/
theorem bodyEnd_le_length {t n p c o : Token} {inBody : List Token}
    (hd : ts.drop k = t :: n :: p :: c :: o :: inBody) :
    k + 5 ≤ bodyEnd ts k ∧ bodyEnd ts k ≤ ts.length := by
  have hlen : ts.length = k + 5 + inBody.length := by
    have := congrArg List.length hd
    simp only [List.length_drop, List.length_cons] at this
    omega
  rw [bodyEnd_eq hd]
  cases hm : closingLength 1 inBody with
  | none => simp; omega
  | some m =>
    have := closingLength_le_length hm
    simp; omega

/-- The scan goes on where the body of a recognized definition ends. -/
theorem drop_bodyEnd {t n p c o : Token} {inBody : List Token}
    (hd : ts.drop k = t :: n :: p :: c :: o :: inBody) :
    ts.drop (bodyEnd ts k) = inBody.drop ((closingLength 1 inBody).getD inBody.length) := by
  rw [bodyEnd_eq hd, ← List.drop_drop, drop_body_eq hd]

/-- No definition starts inside the signature or the body of an occurrence. -/
theorem not_isOccurrence_inside {t n p c o : Token} {inBody : List Token} {j : Nat}
    (hk : IsOccurrence ts k) (hd : ts.drop k = t :: n :: p :: c :: o :: inBody)
    (hj : k < j) (hj' : j < bodyEnd ts k) : ¬ IsOccurrence ts j := by
  obtain ⟨-, n', p', c', o', inBody', heq, hn, hp, hc, -⟩ := signatureKinds_cons_iff.1 (hk.kinds hd)
  simp only [List.cons.injEq] at heq
  obtain ⟨rfl, rfl, rfl, rfl, rfl⟩ := heq
  intro hocc
  by_cases hin : k + 4 ≤ j
  · exact (isOccurrence_iff.1 hocc).2 k hj hk ⟨hin, hj'⟩
  -- the name and the parentheses are no `dataType`
  have hj3 : j = k + 1 ∨ j = k + 2 ∨ j = k + 3 := by omega
  rcases hj3 with rfl | rfl | rfl
  · exact not_isOccurrence_of_getElem? (getElem?_of_drop_eq hd 1) (by rw [hn]; decide) hocc
  · exact not_isOccurrence_of_getElem? (getElem?_of_drop_eq hd 2) (by rw [hp]; decide) hocc
  · exact not_isOccurrence_of_getElem? (getElem?_of_drop_eq hd 3) (by rw [hc]; decide) hocc

end Occurrence

/-! ## What the scan has found -/

/-- What the scan has found after reading the first `k` tokens of `ts` at top level: the body of
    every occurrence before `k` ends by `k`, the program names the occurrences before `k`, and
    each name holds the definition of its last occurrence before `k`, with the body `r` reads. -/
structure Found (r : Run) (ts : List Token) (k : Nat) (p : Program) : Prop where
  bodies : ∀ j, j < k → IsOccurrence ts j → bodyEnd ts j ≤ k
  names : ∀ name, (p.get? name).isSome ↔
    ∃ i nm, i < k ∧ IsOccurrence ts i ∧ ts[i + 1]? = some nm ∧ nm.text = name
  defs : ∀ i ty nm lp rp lb post, i < k → ts.drop i = ty :: nm :: lp :: rp :: lb :: post →
    IsOccurrence ts i →
    (∀ j nm', i < j → j < k → IsOccurrence ts j → ts[j + 1]? = some nm' → nm'.text ≠ nm.text) →
    ∃ b, Body.enter r.settings.mode.isStrict r.settings.maxDepth r.finish 0 lb post = .ok b ∧
      p.get? nm.text = some ⟨signatureHeader ty nm rp, b.block⟩

namespace Found

variable {r : Run} {ts : List Token} {k : Nat} {p : Program}

theorem start : Found r ts 0 {} where
  bodies _ hj := absurd hj (Nat.not_lt_zero _)
  names _ := by simp; rfl
  defs _ _ _ _ _ _ _ hi := absurd hi (Nat.not_lt_zero _)

/-- Passing over tokens where no definition starts keeps what was found. -/
theorem advance {k' : Nat} (h : Found r ts k p) (hk : k ≤ k')
    (hnone : ∀ j, k ≤ j → j < k' → ¬ IsOccurrence ts j) : Found r ts k' p := by
  have before : ∀ j, j < k' → IsOccurrence ts j → j < k := fun j hj hocc =>
    Nat.lt_of_not_le fun hge => hnone j hge hj hocc
  refine ⟨fun j hj hocc => ?_, fun name => ?_, fun i ty nm lp rp lb post hi hd hocc hlast => ?_⟩
  · exact Nat.le_trans (h.bodies j (before j hj hocc) hocc) hk
  · rw [h.names name]
    constructor
    · rintro ⟨i, nm, hi, hocc, hnm, htext⟩
      exact ⟨i, nm, by omega, hocc, hnm, htext⟩
    · rintro ⟨i, nm, hi, hocc, hnm, htext⟩
      exact ⟨i, nm, before i hi hocc, hocc, hnm, htext⟩
  · exact h.defs i ty nm lp rp lb post (before i hi hocc) hd hocc
      fun j nm' hij hjk => hlast j nm' hij (by omega)

/-- Recognizing the definition whose signature starts at `k`, under the overwrite policy: `k` is
    an occurrence, and what was found reaches to the end of its body. -/
theorem signature {t n lp c o : Token} {inBody : List Token} {b : Body inBody}
    (h : Found r ts k p) (hd : ts.drop k = t :: n :: lp :: c :: o :: inBody)
    (hkinds : ((t :: n :: lp :: c :: o :: inBody).take 5).map Token.kind = signatureKinds)
    (hb : Body.enter r.settings.mode.isStrict r.settings.maxDepth r.finish 0 o inBody = .ok b) :
    IsOccurrence ts k ∧
      Found r ts (bodyEnd ts k) (p.insert ⟨signatureHeader t n c, b.block⟩ .overwrite).2 := by
  have hocc : IsOccurrence ts k := isOccurrence_iff.2 ⟨by rw [hd]; exact hkinds,
    fun j hj hoccj hin => by have := h.bodies j hj hoccj; omega⟩
  have hk5 := (bodyEnd_le_length hd).1
  -- up to the end of its body, the only occurrence from `k` on is `k` itself
  have before : ∀ j, j < bodyEnd ts k → IsOccurrence ts j → j < k ∨ j = k := fun j hj hoccj => by
    rcases Nat.lt_trichotomy j k with hlt | heq | hgt
    · exact .inl hlt
    · exact .inr heq
    · exact absurd hoccj (not_isOccurrence_inside hocc hd hgt hj)
  have hname : ts[k + 1]? = some n := getElem?_of_drop_eq hd 1
  have hdname : (⟨signatureHeader t n c, b.block⟩ : FunctionDefinition).name = n.text := rfl
  refine ⟨hocc, fun j hj hoccj => ?_, fun name => ?_,
    fun i ty nm lp' rp lb post hi hdi hocci hlast => ?_⟩
  · rcases before j hj hoccj with hlt | rfl
    · have := h.bodies j hlt hoccj
      omega
    · exact Nat.le_refl _
  · rw [Program.get?_insert_overwrite, hdname]
    by_cases hn : name = n.text
    · rw [if_pos hn]
      exact ⟨fun _ => ⟨k, n, by omega, hocc, hname, hn.symm⟩, fun _ => rfl⟩
    · rw [if_neg hn, h.names name]
      constructor
      · rintro ⟨i, nm, hi, hocci, hnm, htext⟩
        exact ⟨i, nm, by omega, hocci, hnm, htext⟩
      · rintro ⟨i, nm, hi, hocci, hnm, htext⟩
        rcases before i hi hocci with hlt | rfl
        · exact ⟨i, nm, hlt, hocci, hnm, htext⟩
        · rw [hname] at hnm
          cases hnm
          exact absurd htext.symm hn
  · rw [Program.get?_insert_overwrite, hdname]
    rcases before i hi hocci with hlt | rfl
    · -- an earlier occurrence keeps its definition, since this one has another name
      have hne : nm.text ≠ n.text := fun heq => hlast k n hlt (by omega) hocc hname heq.symm
      rw [if_neg hne]
      exact h.defs i ty nm lp' rp lb post hlt hdi hocci fun j nm' hij hjk => hlast j nm' hij (by omega)
    · rw [hd] at hdi
      simp only [List.cons.injEq] at hdi
      obtain ⟨rfl, rfl, rfl, rfl, rfl, rfl⟩ := hdi
      exact ⟨b, hb, by rw [if_pos rfl]⟩

end Found

/-! ## Whole runs -/

section Run

variable {r : Run} {ts : List Token}

/-- A successful scan under the overwrite policy from the `k`-th token on ends with what `Found`
    says of all the tokens. -/
theorem scan_found (hpol : r.settings.policy = .overwrite) {k : Nat} {f g : Findings}
    (hk : k ≤ ts.length) (hf : Found r ts k f.program) (h : scan r f (ts.drop k) = .ok g) :
    Found r ts ts.length g.program := by
  cases hd : ts.drop k with
  | nil =>
    rw [hd, scan_nil] at h
    cases h
    have hend : k = ts.length := by
      have := List.drop_eq_nil_iff.1 hd
      omega
    rw [← hend]
    exact hf
  | cons t rest =>
    rw [hd] at h
    have hlt : k < ts.length := by
      have := congrArg List.length hd
      simp only [List.length_drop, List.length_cons] at this
      omega
    have hrest : ts.drop (k + 1) = rest := by
      rw [← List.drop_drop, hd]
      rfl
    have hhead : ts[k]? = some t := getElem?_of_drop_eq hd 0
    by_cases ht : t.kind = .dataType
    case neg =>
      rw [scan_pass ht] at h
      have hf' : Found r ts (k + 1) f.program := hf.advance (Nat.le_succ k) fun j hj hj' => by
        rw [show j = k by omega]
        exact not_isOccurrence_of_getElem? hhead ht
      rw [← hrest] at h
      exact scan_found hpol hlt hf' h
    cases hl : lead t rest with
    | skip message at_ rest' =>
      rw [scan_skip ht hl] at h
      obtain ⟨k', hkk', hlen, hdrop, hnone⟩ := lead_skip_advance hd hl
      have hf' : Found r ts k' (skipped r f message at_).program := by
        rw [skipped_program]
        exact hf.advance (Nat.le_of_lt hkk') hnone
      rw [← hdrop] at h
      exact scan_found hpol hlen hf' h
    | signature n lp c o inBody =>
      obtain ⟨rfl, hkinds⟩ := lead_eq_signature_iff.1 hl
      have hsig : ((t :: n :: lp :: c :: o :: inBody).take 5).map Token.kind = signatureKinds :=
        signatureKinds_cons_iff.2 ⟨ht, n, lp, c, o, inBody, rfl, hkinds⟩
      cases hb : Body.enter r.settings.mode.isStrict r.settings.maxDepth r.finish 0 o inBody with
      | error e =>
        rw [scan_body_error ht hl hb] at h
        cases h
      | ok body =>
        rw [scan_body_ok ht hl hb] at h
        obtain ⟨f', hrec, h⟩ := bind_eq_ok h
        obtain ⟨outcome, hins, -⟩ := record_ok hrec
        simp only [note_program, foldl_unclosed_program, hpol] at hins
        have hprog : f'.program =
            (f.program.insert ⟨signatureHeader t n c, body.block⟩ .overwrite).2 := by
          rw [hins]
        have hf' := (hf.signature hd hsig hb).2
        rw [← hprog] at hf'
        have hdrop : ts.drop (bodyEnd ts k) = body.rest.1 := by
          rw [drop_bodyEnd hd, enter_rest hb]
        have hlen := bodyEnd_le_length hd
        rw [← hdrop] at h
        exact scan_found hpol hlen.2 hf' h
termination_by ts.length - k

/-- Under the overwrite policy a successful analysis finds exactly the names of the occurrences,
    and under each name the definition of its last occurrence: the return type and the name
    from its signature, no parameters, the span from its type to its `)`, and the body read from
    its `{`. -/
theorem analyzeTokens_occurrences {s : AnalysisSettings} {ts : List Token} {res : AnalysisResult}
    (hpol : s.policy = .overwrite) (h : (analyzeTokens s ts).result = .ok res) :
    (∀ name, name ∈ res.program.names ↔
      ∃ i nm, IsOccurrence ts i ∧ ts[i + 1]? = some nm ∧ nm.text = name) ∧
    ∀ i ty nm lp rp lb post, ts.drop i = ty :: nm :: lp :: rp :: lb :: post → IsOccurrence ts i →
      (∀ j nm', i < j → IsOccurrence ts j → ts[j + 1]? = some nm' → nm'.text ≠ nm.text) →
      ∃ b, Body.enter s.mode.isStrict s.maxDepth (endSpanOf ts) 0 lb post = .ok b ∧
        res.program.get? nm.text = some
          ⟨{ name := nm.text, parameters := [], returnType := ty.text,
             span := some (ty.span.merge rp.span) }, b.block⟩ := by
  obtain ⟨file, f, g, hempty, hscan, rfl⟩ := analyzeTokens_ok h
  have hstart : Found ⟨s, file, endSpanOf ts⟩ ts 0 f.program := by
    rw [hempty]
    exact Found.start
  have hfound := scan_found hpol (Nat.zero_le _) hstart (by rw [List.drop_zero]; exact hscan)
  refine ⟨fun name => ?_, fun i ty nm lp rp lb post hd hocc hlast => ?_⟩
  · rw [Program.mem_names_iff, hfound.names name]
    constructor
    · rintro ⟨i, nm, -, hocc, hnm, htext⟩
      exact ⟨i, nm, hocc, hnm, htext⟩
    · rintro ⟨i, nm, hocc, hnm, htext⟩
      exact ⟨i, nm, hocc.lt_length, hocc, hnm, htext⟩
  · exact hfound.defs i ty nm lp rp lb post hocc.lt_length hd hocc
      fun j nm' hij _ hoccj hnm => hlast j nm' hij hoccj hnm

/-- The analysis of `int f ( ) { }` meets the hypotheses of `analyzeTokens_occurrences`. -/
theorem analyzeTokens_occurrences_single :
    let ts := TokenStream.layout "f.c" [(.dataType, "int"), (.identifier, "f"),
      (.openingParenthesis, "("), (.closingParenthesis, ")"), (.openingCurlyBrace, "\x7b"),
      (.closingCurlyBrace, "\x7d")]
    ∃ res, ({} : AnalysisSettings).policy = .overwrite ∧ (analyzeTokens {} ts).result = .ok res ∧
      (∀ name, name ∈ res.program.names ↔
        ∃ i nm, IsOccurrence ts i ∧ ts[i + 1]? = some nm ∧ nm.text = name) ∧
      ∀ i ty nm lp rp lb post, ts.drop i = ty :: nm :: lp :: rp :: lb :: post →
        IsOccurrence ts i →
        (∀ j nm', i < j → IsOccurrence ts j → ts[j + 1]? = some nm' → nm'.text ≠ nm.text) →
        ∃ b, Body.enter ({} : AnalysisSettings).mode.isStrict ({} : AnalysisSettings).maxDepth
            (endSpanOf ts) 0 lb post = .ok b ∧
          res.program.get? nm.text = some
            ⟨{ name := nm.text, parameters := [], returnType := ty.text,
               span := some (ty.span.merge rp.span) }, b.block⟩ := by
  intro ts
  have hok : (analyzeTokens {} ts).result.toBool = true := by decide +kernel
  cases h : (analyzeTokens {} ts).result with
  | error e => simp [h, Except.toBool] at hok
  | ok res => exact ⟨res, rfl, rfl, analyzeTokens_occurrences rfl h⟩

end Run

end Analysis

end COutline
