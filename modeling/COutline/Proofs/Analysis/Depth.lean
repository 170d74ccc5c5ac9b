import COutline.Proofs.Analysis.Blocks
import COutline.Proofs.Analysis.Occurrences
import COutline.Proofs.Analysis.Policies

/-!
# The depth limit

A body may nest at most `m` blocks, its own included.  Its first `{` at level `m + 1`
(`firstTooDeep`) stops the analysis with `maxBlockDepth m` at that brace, in either mode: the
depth check comes before the end of the tokens is ever reached (`enter_firstTooDeep`).  A body
with no such brace is read without error in lenient mode, and in strict mode too when its brace
is matched; its depth is then at most `m` (`enter_ok_depth`).

The top-level scan reads the bodies of the occurrences in stream order (`recognized_walk`), so
an analysis fails on the depth limit exactly when the first body that fails has a brace too
deep, no name was refused before it, and the limit it names is the clamped one
(`analyzeTokens_depth_limit`).
-/

namespace COutline

namespace Analysis

/-! ## One body -/

/-- The first `{` of a body at level `m + 1`, one level deeper than `m` nested blocks allow. -/
def firstTooDeep (m : Nat) (ts : List Token) : Option Opening :=
  (openings 1 ts).find? (·.level == m + 1)

/-- Levels grow one at a time, so the first opening past level `L` is at level `L + 1`. -/
theorem find?_openings_over (L : Nat) (e : Nat) (ts : List Token) (he : e ≤ L) :
    (openings e ts).find? (fun op => L < op.level) = (openings e ts).find? (·.level == L + 1) := by
  induction ts generalizing e with
  | nil => cases e <;> simp
  | cons t ts ih =>
    cases e with
    | zero => simp
    | succ c =>
      rw [openings_succ_cons]
      split
      · next hopen =>
        by_cases hL : L < c + 2
        · -- the brace just read is the first past the limit, at exactly one level more
          rw [List.find?_cons_of_pos (by simpa using hL),
            List.find?_cons_of_pos (by simp only [beq_iff_eq]; omega)]
        · rw [List.find?_cons_of_neg (by simpa using hL),
            List.find?_cons_of_neg (by simp only [beq_iff_eq]; omega)]
          exact ih _ (by rw [afterToken_open hopen]; omega)
      · next hopen =>
        have hle : afterToken c t ≤ c + 1 := by
          unfold afterToken
          rw [if_neg hopen]
          split <;> omega
        exact ih _ (by omega)

/-- A body read leniently from nesting index `0` fails exactly at its first brace too deep. -/
theorem find?_tooDeep_eq (m : Nat) (hm : 1 ≤ m) (ts : List Token) :
    (openings 1 ts).find? (fun op => m < 0 + op.level) = firstTooDeep m ts := by
  rw [firstTooDeep, ← find?_openings_over m 1 ts hm]
  simp only [Nat.zero_add]

theorem deepest_le {ops : List Opening} {m : Nat} (hm : 1 ≤ m) (h : ∀ op ∈ ops, op.level ≤ m) :
    deepest ops ≤ m := by
  induction ops with
  | nil => exact hm
  | cons op ops ih =>
    rw [deepest_cons]
    exact Nat.max_le.2 ⟨h op List.mem_cons_self, ih fun op' h' => h op' (List.mem_cons_of_mem _ h')⟩

section Enter

variable {m : Nat} {fin : Span} {o : Token} {ts : List Token}

theorem enter_eq_items (hm : 1 ≤ m) (strict : Bool) :
    Body.enter strict m fin 0 o ts = Body.items strict m fin 0 o #[] [] ts := by
  rw [Body.enter, if_neg (by omega)]

/-- A lenient reading from nesting index `0` fails exactly at the first brace too deep, and
    names the limit and that brace. -/
theorem enter_lenient_error {e : SyntaxError × LogEvent} (hm : 1 ≤ m)
    (h : Body.enter false m fin 0 o ts = .error e) :
    ∃ op, firstTooDeep m ts = some op ∧ e = tooDeepHalt m (op.level - 1) op.brace := by
  rw [enter_eq_items hm] at h
  obtain ⟨op, hfind, rfl⟩ := items_error h
  exact ⟨op, by rw [← find?_tooDeep_eq m hm, hfind], by rw [Nat.zero_add]⟩

/-- A lenient reading that succeeds has no brace too deep, and depth at most the limit. -/
theorem enter_lenient_ok {b : Body ts} (hm : 1 ≤ m) (h : Body.enter false m fin 0 o ts = .ok b) :
    firstTooDeep m ts = none ∧ b.block.depth ≤ m := by
  rw [enter_eq_items hm] at h
  have hlevels := items_ok_levels h
  refine ⟨?_, ?_⟩
  · rw [← find?_tooDeep_eq m hm]
    exact List.find?_eq_none.2 fun op hop => by
      have := hlevels op hop
      simp only [decide_eq_true_eq]
      omega
  · rw [items_depth h]
    have hdeep := deepest_le hm fun op hop => by have := hlevels op hop; omega
    simp only [Block.maxDepth]
    omega

/-- With no brace too deep, a lenient reading succeeds. -/
theorem enter_lenient_of_none (hm : 1 ≤ m) (h : firstTooDeep m ts = none) :
    ∃ b, Body.enter false m fin 0 o ts = .ok b := by
  cases hl : Body.enter false m fin 0 o ts with
  | error e =>
    obtain ⟨op, hop, -⟩ := enter_lenient_error hm hl
    rw [h] at hop
    cases hop
  | ok b => exact ⟨b, rfl⟩

/-- The first brace too deep stops the reading in either mode, before the end of the tokens. -/
theorem enter_firstTooDeep {op : Opening} (hm : 1 ≤ m) (strict : Bool)
    (h : firstTooDeep m ts = some op) :
    Body.enter strict m fin 0 o ts = .error (tooDeepHalt m (op.level - 1) op.brace) := by
  have hlenient :
      Body.enter false m fin 0 o ts = .error (tooDeepHalt m (op.level - 1) op.brace) := by
    cases hl : Body.enter false m fin 0 o ts with
    | error e =>
      obtain ⟨op', hop', rfl⟩ := enter_lenient_error hm hl
      rw [h] at hop'
      cases hop'
      rfl
    | ok b =>
      rw [(enter_lenient_ok hm hl).1] at h
      cases h
  cases strict with
  | false => exact hlenient
  | true => exact enter_strict_error hlenient

/-- A reading that fails on depth fails at the first brace too deep and names the limit. -/
theorem enter_maxBlockDepth {strict : Bool} {m' : Nat} {sp : Span} {ev : LogEvent} (hm : 1 ≤ m)
    (h : Body.enter strict m fin 0 o ts = .error (.maxBlockDepth m' sp, ev)) :
    m' = m ∧ ∃ op, firstTooDeep m ts = some op ∧ op.brace.span = sp := by
  cases hf : firstTooDeep m ts with
  | some op =>
    rw [enter_firstTooDeep hm strict hf] at h
    cases h
    exact ⟨rfl, op, rfl, rfl⟩
  | none =>
    -- a lenient reading succeeds, and a strict one fails only on an unmatched brace
    obtain ⟨b, hl⟩ : ∃ b, Body.enter false m fin 0 o ts = .ok b := enter_lenient_of_none hm hf
    cases strict with
    | false => rw [hl] at h; cases h
    | true =>
      rw [enter_strict hl] at h
      split at h
      · cases h
      · cases h

/-- A body with no brace too deep is read in lenient mode, and in strict mode when its brace is
    matched. -/
theorem enter_ok_of_firstTooDeep {strict : Bool} (hm : 1 ≤ m) (h : firstTooDeep m ts = none)
    (hclosed : strict = true → (closingLength 1 ts).isSome) :
    ∃ b, Body.enter strict m fin 0 o ts = .ok b := by
  obtain ⟨b, hl⟩ : ∃ b, Body.enter false m fin 0 o ts = .ok b := enter_lenient_of_none hm h
  cases strict with
  | false => exact ⟨b, hl⟩
  | true =>
    -- a matched brace leaves no brace open
    obtain ⟨extra, hextra, hnil⟩ := items_unclosed (items_of_enter hl)
    have hu : b.unclosed = [] := by rw [hextra, hnil.2 (hclosed rfl)]; rfl
    rw [enter_strict hl, hu]
    exact ⟨_, rfl⟩

/-- Whatever the mode, a body read without error nests at most `m` blocks. -/
theorem enter_ok_depth {strict : Bool} {b : Body ts} (hm : 1 ≤ m)
    (h : Body.enter strict m fin 0 o ts = .ok b) : b.block.depth ≤ m := by
  cases hl : Body.enter false m fin 0 o ts with
  | error e =>
    -- a lenient failure is a strict failure too
    cases strict with
    | false => rw [hl] at h; cases h
    | true => rw [enter_strict_error hl] at h; cases h
  | ok b' =>
    cases strict with
    | false =>
      rw [hl] at h
      cases h
      exact (enter_lenient_ok hm hl).2
    | true =>
      have hdepth := (enter_lenient_ok hm hl).2
      rw [enter_strict hl] at h
      split at h
      · cases h
        exact hdepth
      · cases h

end Enter

/-! ## The bodies the scan reads -/

section Walk

variable (strict : Bool) (m : Nat) (fin : Span) (ts : List Token)

/-- Reading the body of the signature at `i` fails with `e`. -/
def FailsAt (i : Nat) (e : SyntaxError) : Prop :=
  ∃ lb, ts[i + 4]? = some lb ∧
    ∃ ev, Body.enter strict m fin 0 lb (ts.drop (i + 5)) = .error (e, ev)

/-- The bodies of the occurrences from `k` on and before `i` are read without error. -/
def ReadsBetween (k i : Nat) : Prop :=
  ∀ j, k ≤ j → j < i → IsOccurrence ts j → ∀ e, ¬ FailsAt strict m fin ts j e

/-- The names of the occurrences from `k` on and before `i` are not in `seen`, and no two of them
    are equal. -/
def FreshBetween (seen : List String) (k i : Nat) : Prop :=
  ∀ j nm, k ≤ j → j < i → IsOccurrence ts j → ts[j + 1]? = some nm → nm.text ∉ seen ∧
    ∀ j' nm', k ≤ j' → j' < j → IsOccurrence ts j' → ts[j' + 1]? = some nm' → nm'.text ≠ nm.text

/-- What a scan from the top-level index `k` recognizes, `r`, says of the occurrences from `k`
    on: an error is that of the first body that fails, and up to that body the definitions
    repeat a name exactly when two occurrences, or one and `seen`, share it. -/
def Walk (k : Nat) (r : List FunctionDefinition × Option SyntaxError) : Prop :=
  (∀ e, r.2 = some e → ∃ i, k ≤ i ∧ IsOccurrence ts i ∧ FailsAt strict m fin ts i e ∧
    ReadsBetween strict m fin ts k i) ∧
  (∀ i e seen, k ≤ i → IsOccurrence ts i → FailsAt strict m fin ts i e →
    ReadsBetween strict m fin ts k i →
    r.2 = some e ∧ (firstRepeat? seen r.1 = none ↔ FreshBetween ts seen k i))

variable {strict m fin ts}

theorem readsBetween_advance {k k' i : Nat} (hkk' : k ≤ k')
    (hnone : ∀ j, k ≤ j → j < k' → ¬ IsOccurrence ts j) :
    ReadsBetween strict m fin ts k i ↔ ReadsBetween strict m fin ts k' i := by
  constructor
  · exact fun h j hj hji hocc => h j (by omega) hji hocc
  · intro h j hj hji hocc
    by_cases hjk : j < k'
    · exact absurd hocc (hnone j hj hjk)
    · exact h j (by omega) hji hocc

theorem freshBetween_advance {seen : List String} {k k' i : Nat} (hkk' : k ≤ k')
    (hnone : ∀ j, k ≤ j → j < k' → ¬ IsOccurrence ts j) :
    FreshBetween ts seen k i ↔ FreshBetween ts seen k' i := by
  constructor
  · intro h j nm hj hji hocc hnm
    obtain ⟨hseen, hbefore⟩ := h j nm (by omega) hji hocc hnm
    exact ⟨hseen, fun j' nm' hj' hj'j => hbefore j' nm' (by omega) hj'j⟩
  · intro h j nm hj hji hocc hnm
    by_cases hjk : j < k'
    · exact absurd hocc (hnone j hj hjk)
    obtain ⟨hseen, hbefore⟩ := h j nm (by omega) hji hocc hnm
    refine ⟨hseen, fun j' nm' hj' hj'j hocc' => ?_⟩
    by_cases hj'k : j' < k'
    · exact absurd hocc' (hnone j' hj' hj'k)
    · exact hbefore j' nm' (by omega) hj'j hocc'

/-- Passing over tokens where no definition starts changes nothing of what the scan says. -/
theorem Walk.advance {k k' : Nat} {r : List FunctionDefinition × Option SyntaxError}
    (hkk' : k ≤ k') (hnone : ∀ j, k ≤ j → j < k' → ¬ IsOccurrence ts j)
    (h : Walk strict m fin ts k' r) : Walk strict m fin ts k r := by
  have hafter : ∀ i, k ≤ i → IsOccurrence ts i → k' ≤ i := fun i hi hocc =>
    Nat.le_of_not_lt fun hlt => hnone i hi hlt hocc
  refine ⟨fun e he => ?_, fun i e seen hi hocc hfail hreads => ?_⟩
  · obtain ⟨i, hi, hocc, hfail, hreads⟩ := h.1 e he
    exact ⟨i, by omega, hocc, hfail, (readsBetween_advance hkk' hnone).2 hreads⟩
  · rw [freshBetween_advance hkk' hnone]
    exact h.2 i e seen (hafter i hi hocc) hocc hfail ((readsBetween_advance hkk' hnone).1 hreads)

/-- The names from an occurrence on are fresh when its own name is, and the later ones are fresh
    once it is seen. -/
theorem freshBetween_occurrence {seen : List String} {k k' i : Nat} {nm : Token}
    (hocc : IsOccurrence ts k) (hnm : ts[k + 1]? = some nm) (hkk' : k < k')
    (hnone : ∀ j, k < j → j < k' → ¬ IsOccurrence ts j) (hk'i : k' ≤ i) :
    FreshBetween ts seen k i ↔ nm.text ∉ seen ∧ FreshBetween ts (nm.text :: seen) k' i := by
  constructor
  · intro h
    refine ⟨(h k nm (Nat.le_refl k) (by omega) hocc hnm).1, fun j nm₂ hj hji hocc₂ hnm₂ => ?_⟩
    obtain ⟨hseen, hbefore⟩ := h j nm₂ (by omega) hji hocc₂ hnm₂
    refine ⟨fun hmem => ?_, fun j' nm' hj' hj'j => hbefore j' nm' (by omega) hj'j⟩
    rcases List.mem_cons.1 hmem with heq | hmem
    · exact hbefore k nm (Nat.le_refl k) (by omega) hocc hnm heq.symm
    · exact hseen hmem
  · rintro ⟨hfresh, h⟩ j nm₂ hj hji hocc₂ hnm₂
    rcases Nat.eq_or_lt_of_le hj with rfl | hj
    · -- the occurrence itself: nothing comes before it
      rw [hnm] at hnm₂
      cases hnm₂
      exact ⟨hfresh, fun j' nm' hj' hj'j => absurd hj'j (by omega)⟩
    by_cases hjk : j < k'
    · exact absurd hocc₂ (hnone j hj hjk)
    obtain ⟨hseen, hbefore⟩ := h j nm₂ (by omega) hji hocc₂ hnm₂
    refine ⟨fun hmem => hseen (List.mem_cons_of_mem _ hmem), fun j' nm' hj' hj'j hocc' hnm' => ?_⟩
    rcases Nat.eq_or_lt_of_le hj' with rfl | hj'
    · rw [hnm] at hnm'
      cases hnm'
      exact fun heq => hseen (List.mem_cons.2 (.inl heq.symm))
    by_cases hj'k : j' < k'
    · exact absurd hocc' (hnone j' hj' hj'k)
    · exact hbefore j' nm' (by omega) hj'j hocc' hnm'

/-- An occurrence whose body fails ends the walk there, with that body's error. -/
theorem Walk.fail {k : Nat} {e₀ : SyntaxError} (hocc : IsOccurrence ts k)
    (hfails : ∀ e, FailsAt strict m fin ts k e ↔ e = e₀) :
    Walk strict m fin ts k ([], some e₀) := by
  refine ⟨fun e he => ?_, fun i e seen hi hocci hfail hreads => ?_⟩
  · cases he
    exact ⟨k, Nat.le_refl k, hocc, (hfails e₀).2 rfl, fun j hj hjk => absurd hjk (by omega)⟩
  · -- the body at `k` fails, so no later body is reached
    rcases Nat.eq_or_lt_of_le hi with rfl | hi
    · cases (hfails e).1 hfail
      exact ⟨rfl, iff_of_true rfl fun j nm hj hji => absurd hji (by omega)⟩
    · exact absurd ((hfails e₀).2 rfl) (hreads k (Nat.le_refl k) hi hocc e₀)

/-- An occurrence whose body is read adds its definition to what the walk from the end of that
    body recognizes, and its name to the names seen there. -/
theorem Walk.read {k k' : Nat} {nm : Token} {d : FunctionDefinition}
    {r : List FunctionDefinition × Option SyntaxError}
    (hocc : IsOccurrence ts k) (hnm : ts[k + 1]? = some nm) (hname : d.name = nm.text)
    (hok : ∀ e, ¬ FailsAt strict m fin ts k e) (hkk' : k < k')
    (hinside : ∀ j, k < j → j < k' → ¬ IsOccurrence ts j)
    (h : Walk strict m fin ts k' r) : Walk strict m fin ts k (d :: r.1, r.2) := by
  refine ⟨fun e he => ?_, fun i e seen hi hocci hfail hreads => ?_⟩
  · obtain ⟨i, hi, hocci, hfail, hreads⟩ := h.1 e he
    refine ⟨i, by omega, hocci, hfail, fun j hj hji hoccj => ?_⟩
    rcases Nat.eq_or_lt_of_le hj with rfl | hj
    · exact hok
    · by_cases hjk : j < k'
      · exact absurd hoccj (hinside j hj hjk)
      · exact hreads j (by omega) hji hoccj
  · -- the body at `k` is read, so the failing body comes after it
    have hik : k < i := by
      rcases Nat.eq_or_lt_of_le hi with rfl | hi
      · exact absurd hfail (hok e)
      · exact hi
    have hend : k' ≤ i := Nat.le_of_not_lt fun hlt => hinside i hik hlt hocci
    obtain ⟨herr, hfresh⟩ := h.2 i e (nm.text :: seen) hend hocci hfail
      fun j hj hji hoccj => hreads j (by omega) hji hoccj
    refine ⟨herr, ?_⟩
    rw [freshBetween_occurrence hocc hnm hkk' hinside hend, firstRepeat?, hname]
    by_cases hseen : nm.text ∈ seen
    · simp [hseen]
    · rw [if_neg hseen, hfresh]
      simp [hseen]

/-- Passing over tokens where no definition starts keeps every earlier body ending before the
    index reached. -/
theorem bodyEnd_le_of_advance {k k' : Nat} (hkk' : k ≤ k')
    (htop : ∀ j, j < k → IsOccurrence ts j → bodyEnd ts j ≤ k)
    (hnone : ∀ j, k ≤ j → j < k' → ¬ IsOccurrence ts j) :
    ∀ j, j < k' → IsOccurrence ts j → bodyEnd ts j ≤ k' := fun j hj hocc => by
  by_cases hjk : j < k
  · exact Nat.le_trans (htop j hjk hocc) hkk'
  · exact absurd hocc (hnone j (by omega) hj)

/-- From a top-level index `k`, the scan reads the bodies of the occurrences in stream order, up
    to the first that fails. -/
theorem recognized_walk {k : Nat} (hk : k ≤ ts.length)
    (htop : ∀ j, j < k → IsOccurrence ts j → bodyEnd ts j ≤ k) :
    Walk strict m fin ts k (recognized strict m fin (ts.drop k)) := by
  cases hd : ts.drop k with
  | nil =>
    have hend : ts.length ≤ k := List.drop_eq_nil_iff.1 hd
    rw [recognized_nil]
    exact ⟨fun e he => (by cases he), fun i e seen hi hocc => absurd hocc.lt_length (by omega)⟩
  | cons t rest =>
    have hlt : k < ts.length := by
      have := congrArg List.length hd
      simp only [List.length_drop, List.length_cons] at this
      omega
    have hrest : ts.drop (k + 1) = rest := by
      rw [← List.drop_drop, hd]
      rfl
    have hhead : ts[k]? = some t := getElem?_of_drop_eq hd 0
    by_cases ht : t.kind = .dataType
    case neg =>
      have hnone : ∀ j, k ≤ j → j < k + 1 → ¬ IsOccurrence ts j := fun j hj hj' => by
        rw [show j = k by omega]
        exact not_isOccurrence_of_getElem? hhead ht
      rw [recognized_pass ht, ← hrest]
      exact Walk.advance (Nat.le_succ k) hnone
        (recognized_walk hlt (bodyEnd_le_of_advance (Nat.le_succ k) htop hnone))
    cases hl : lead t rest with
    | skip message at_ rest' =>
      rw [recognized_skip ht hl]
      obtain ⟨k', hkk', hlen, hdrop, hnone⟩ := lead_skip_advance hd hl
      rw [← hdrop]
      exact Walk.advance (Nat.le_of_lt hkk') hnone
        (recognized_walk hlen (bodyEnd_le_of_advance (Nat.le_of_lt hkk') htop hnone))
    | signature n lp c o inBody =>
      obtain ⟨rfl, hkinds⟩ := lead_eq_signature_iff.1 hl
      have hocc : IsOccurrence ts k := isOccurrence_iff.2 ⟨by
        rw [hd]
        exact signatureKinds_cons_iff.2 ⟨ht, n, lp, c, o, inBody, rfl, hkinds⟩,
        fun j hj hoccj hin => by have := htop j hj hoccj; omega⟩
      -- whether the body at `k` fails is what reading it from its `{` gives
      have hfails : ∀ e, FailsAt strict m fin ts k e ↔
          ∃ ev, Body.enter strict m fin 0 o inBody = .error (e, ev) := fun e => by
        rw [FailsAt, getElem?_of_drop_eq hd 4, drop_body_eq hd]
        constructor
        · rintro ⟨lb, hlb, he⟩
          cases hlb
          exact he
        · exact fun he => ⟨o, rfl, he⟩
      cases hb : Body.enter strict m fin 0 o inBody with
      | error halt =>
        obtain ⟨e₀, ev₀⟩ := halt
        rw [recognized_body_error ht hl hb]
        refine Walk.fail hocc fun e => ?_
        rw [hfails, hb]
        constructor
        · rintro ⟨ev, h⟩
          cases h
          rfl
        · rintro rfl
          exact ⟨ev₀, rfl⟩
      | ok body =>
        rw [recognized_body_ok ht hl hb]
        have hend := bodyEnd_le_length hd
        have hdrop : ts.drop (bodyEnd ts k) = body.rest.1 := by
          rw [drop_bodyEnd hd, enter_rest hb]
        have hinside : ∀ j, k < j → j < bodyEnd ts k → ¬ IsOccurrence ts j := fun j hj hj' =>
          not_isOccurrence_inside hocc hd hj hj'
        have hok : ∀ e, ¬ FailsAt strict m fin ts k e := fun e hfail => by
          rw [hfails, hb] at hfail
          obtain ⟨ev, h⟩ := hfail
          cases h
        -- the occurrence at `k` is top level, so its body ends the stretch before `bodyEnd ts k`
        have ih := recognized_walk (k := bodyEnd ts k) hend.2 fun j hj hoccj => by
          rcases Nat.lt_trichotomy j k with hjk | rfl | hjk
          · exact Nat.le_trans (htop j hjk hoccj) (by omega)
          · exact Nat.le_refl _
          · exact absurd hoccj (hinside j hjk hj)
        rw [hdrop] at ih
        exact Walk.read hocc (getElem?_of_drop_eq hd 1) rfl hok (by omega) hinside ih
termination_by ts.length - k

end Walk

/-- Every definition the scan recognizes has a body read without error. -/
theorem body_of_mem_recognized {strict : Bool} {m : Nat} {fin : Span} {ts : List Token}
    {d : FunctionDefinition} (h : d ∈ (recognized strict m fin ts).1) :
    ∃ (o : Token) (xs : List Token) (b : Body xs),
      Body.enter strict m fin 0 o xs = .ok b ∧ d.body = b.block := by
  fun_induction recognized strict m fin ts with
  | case1 => cases h
  | case2 _ _ _ _ _ _ _ ih => exact ih h
  | case3 => cases h
  | case4 _ _ _ _ _ _ o inBody _ body hb _ ih =>
    rcases List.mem_cons.1 h with rfl | h
    · exact ⟨o, inBody, body, hb, rfl⟩
    · exact ih h
  | case5 _ _ _ ih => exact ih h

/-- An occurrence is a whole signature, with a body after its `{`. -/
theorem IsOccurrence.signature {ts : List Token} {i : Nat} (h : IsOccurrence ts i) :
    ∃ ty nm lp rp lb post, ts.drop i = ty :: nm :: lp :: rp :: lb :: post := by
  cases hd : ts.drop i with
  | nil =>
    have hkinds := (isOccurrence_iff.1 h).1
    rw [hd] at hkinds
    simp [signatureKinds] at hkinds
  | cons t rest =>
    obtain ⟨-, n, p, c, o, inBody, rfl, -⟩ := signatureKinds_cons_iff.1 (h.kinds hd)
    exact ⟨t, n, p, c, o, inBody, rfl⟩

/-- The body of an occurrence that another one follows is closed before it. -/
theorem closingLength_isSome_of_later {ts : List Token} {j i : Nat} (hj : IsOccurrence ts j)
    (hi : IsOccurrence ts i) (hji : j < i) : (closingLength 1 (ts.drop (j + 5))).isSome := by
  obtain ⟨ty, nm, lp, rp, lb, post, hd⟩ := hj.signature
  have hend : bodyEnd ts j ≤ i := Nat.le_of_not_lt fun hlt => not_isOccurrence_inside hj hd hji hlt hi
  have hlt := hi.lt_length
  have hlen : ts.length = j + 5 + post.length := by
    have := congrArg List.length hd
    simp only [List.length_drop, List.length_cons] at this
    omega
  rw [bodyEnd_eq hd] at hend
  rw [drop_body_eq hd]
  cases hk : closingLength 1 post with
  | none =>
    -- an open body reaches to the end of the tokens, past the later occurrence
    rw [hk, Option.getD_none] at hend
    omega
  | some k => rfl

section Occurrence

variable {strict : Bool} {m : Nat} {fin : Span} {ts : List Token}

/-- The body of an occurrence fails on depth exactly at its first brace too deep. -/
theorem failsAt_maxBlockDepth_iff {m' : Nat} {sp : Span} {i : Nat} (hm : 1 ≤ m)
    (hocc : IsOccurrence ts i) :
    FailsAt strict m fin ts i (.maxBlockDepth m' sp) ↔
      m' = m ∧ ∃ op, firstTooDeep m (ts.drop (i + 5)) = some op ∧ op.brace.span = sp := by
  constructor
  · rintro ⟨lb, -, ev, h⟩
    exact enter_maxBlockDepth hm h
  · rintro ⟨rfl, op, hop, rfl⟩
    obtain ⟨ty, nm, lp, rp, lb, post, hd⟩ := hocc.signature
    exact ⟨lb, getElem?_of_drop_eq hd 4, _, enter_firstTooDeep hm strict hop⟩

/-- The body of an occurrence that another one follows is read without error exactly when no
    brace of it is too deep. -/
theorem reads_iff_firstTooDeep {j i : Nat} (hm : 1 ≤ m) (hj : IsOccurrence ts j)
    (hi : IsOccurrence ts i) (hji : j < i) :
    (∀ e, ¬ FailsAt strict m fin ts j e) ↔ firstTooDeep m (ts.drop (j + 5)) = none := by
  obtain ⟨ty, nm, lp, rp, lb, post, hd⟩ := hj.signature
  have hlb : ts[j + 4]? = some lb := getElem?_of_drop_eq hd 4
  constructor
  · intro h
    cases hf : firstTooDeep m (ts.drop (j + 5)) with
    | none => rfl
    | some op => exact absurd ⟨lb, hlb, _, enter_firstTooDeep hm strict hf⟩ (h _)
  · rintro hnone e ⟨lb', hlb', ev, he⟩
    rw [hlb] at hlb'
    cases hlb'
    have hread : ∃ b, Body.enter strict m fin 0 lb (ts.drop (j + 5)) = .ok b :=
      enter_ok_of_firstTooDeep hm hnone fun _ => closingLength_isSome_of_later hj hi hji
    obtain ⟨b, hb⟩ := hread
    rw [hb] at he
    cases he

end Occurrence

/-! ## The analysis -/

/-- Under the overwrite policy a scan fails with `e` exactly when the bodies it recognizes stop
    with `e`. -/
theorem scan_error_iff_of_overwrite {r : Run} (hpol : r.settings.policy = .overwrite)
    {f : Findings} {ts : List Token} {e : SyntaxError} :
    (∃ g, scan r f ts = .error (e, g)) ↔
      (recognized r.settings.mode.isStrict r.settings.maxDepth r.finish ts).2 = some e := by
  obtain ⟨hok, herr⟩ := @scan_overwrite r hpol ts f
  constructor
  · rintro ⟨g, hg⟩
    exact herr e g hg
  · intro hrec
    cases hs : scan r f ts with
    | ok g =>
      rw [(hok g hs).1] at hrec
      cases hrec
    | error eg =>
      rw [herr eg.1 eg.2 hs] at hrec
      cases hrec
      exact ⟨eg.2, rfl⟩

/-- An analysis fails with an error that is no refused name exactly when the bodies the scan
    recognizes stop with it and, under the reject policy, no name was refused before. -/
theorem analyzeTokens_error_iff (s : AnalysisSettings) (ts : List Token) {e : SyntaxError}
    (he : ∀ name sp, e ≠ .duplicateFunction name sp) :
    (analyzeTokens s ts).result = .error e ↔
      (recognized s.mode.isStrict s.maxDepth (endSpanOf ts) ts).2 = some e ∧
      (s.policy = .reject →
        firstRepeat? [] (recognized s.mode.isStrict s.maxDepth (endSpanOf ts) ts).1 = none) := by
  obtain ⟨file, f, hprog, -, -, -, hok, herr⟩ := analyzeTokens_result s ts
  have hnames : f.program.names = [] := by rw [hprog]; rfl
  -- the analysis fails exactly as its scan does
  have hres : (analyzeTokens s ts).result = .error e ↔
      ∃ g, scan ⟨s, file, endSpanOf ts⟩ f ts = .error (e, g) := by
    cases hs : scan ⟨s, file, endSpanOf ts⟩ f ts with
    | ok g =>
      rw [hok g hs]
      exact ⟨fun h => (by cases h), fun ⟨_, h⟩ => (by cases h)⟩
    | error eg =>
      rw [herr eg.1 eg.2 hs]
      constructor
      · intro h
        cases h
        exact ⟨eg.2, rfl⟩
      · rintro ⟨g, h⟩
        cases h
        rfl
  rw [hres]
  cases hpol : s.policy with
  | overwrite =>
    rw [scan_error_iff_of_overwrite (r := ⟨s, file, endSpanOf ts⟩) hpol]
    exact ⟨fun h => ⟨h, fun h' => by cases h'⟩, fun h => h.1⟩
  | reject =>
    obtain ⟨hsame, hrepeat⟩ := @scan_reject ⟨s, file, endSpanOf ts⟩ hpol ts f
    rw [hnames] at hsame hrepeat
    cases hfirst : firstRepeat? [] (recognized s.mode.isStrict s.maxDepth (endSpanOf ts) ts).1 with
    | none =>
      rw [hsame hfirst, scan_error_iff_of_overwrite rfl]
      exact ⟨fun h => ⟨h, fun _ => rfl⟩, fun h => h.1⟩
    | some d =>
      -- the scan stops at the first refused name
      obtain ⟨g, hg⟩ := hrepeat d hfirst
      rw [hg]
      constructor
      · rintro ⟨g', h⟩
        cases h
        exact absurd rfl (he _ _)
      · rintro ⟨-, h⟩
        cases h rfl

/-- A successful analysis holds the definitions its scan recognizes, each replacing an earlier
    one of its name, whatever the policy. -/
theorem analyzeTokens_ok_program {s : AnalysisSettings} {ts : List Token} {res : AnalysisResult}
    (h : (analyzeTokens s ts).result = .ok res) :
    res.program = ({} : Program).overwriteAll
      (recognized s.mode.isStrict s.maxDepth (endSpanOf ts) ts).1 := by
  obtain ⟨file, f, g, hprog, hscan, rfl⟩ := analyzeTokens_ok h
  show g.program = _
  cases hpol : s.policy with
  | overwrite =>
    rw [((scan_overwrite (r := ⟨s, file, endSpanOf ts⟩) hpol).1 g hscan).2.1, hprog]
  | reject =>
    obtain ⟨hsame, hrepeat⟩ := @scan_reject ⟨s, file, endSpanOf ts⟩ hpol ts f
    have hnames : f.program.names = [] := by rw [hprog]; rfl
    rw [hnames] at hsame hrepeat
    cases hfirst : firstRepeat? [] (recognized s.mode.isStrict s.maxDepth (endSpanOf ts) ts).1 with
    | some d =>
      obtain ⟨g', hg'⟩ := hrepeat d hfirst
      rw [hg'] at hscan
      cases hscan
    | none =>
      rw [hsame hfirst] at hscan
      rw [((scan_overwrite (r := (⟨s, file, endSpanOf ts⟩ : Run).withPolicy .overwrite) rfl).1
        g hscan).2.1, hprog]
      rfl

/-- With the depth limit clamped to `1 … Limits.standard.maxBlockDepth`, an analysis fails on
    depth exactly when, before any other error, the scan reads the body of a definition with a
    `{` one level deeper than the limit allows; the error names the clamped limit and the first
    such brace of that body.  Braces outside the bodies never count.  A successful analysis keeps
    every body within the limit. -/
theorem analyzeTokens_depth_limit (s : AnalysisSettings) (req : Nat) (ts : List Token) :
    let D := AnalysisSettings.clampDepth req
    1 ≤ D ∧ D ≤ Limits.standard.maxBlockDepth ∧
    (∀ m' sp, (analyzeTokens { s with maxDepth := D } ts).result = .error (.maxBlockDepth m' sp) ↔
      m' = D ∧ ∃ i op, IsOccurrence ts i ∧ firstTooDeep D (ts.drop (i + 5)) = some op ∧
        op.brace.span = sp ∧
        (∀ j, j < i → IsOccurrence ts j → firstTooDeep D (ts.drop (j + 5)) = none) ∧
        (s.policy = .reject → FreshBetween ts [] 0 i)) ∧
    (∀ res, (analyzeTokens { s with maxDepth := D } ts).result = .ok res →
      ∀ name d, res.program.get? name = some d → d.body.depth ≤ D) := by
  intro D
  have hD : 1 ≤ D ∧ D ≤ Limits.standard.maxBlockDepth := by
    simp only [D, AnalysisSettings.clampDepth, Limits.standard]
    omega
  refine ⟨hD.1, hD.2, fun m' sp => ?_, fun res hres name d hget => ?_⟩
  · rw [analyzeTokens_error_iff _ ts fun _ _ h => by cases h]
    -- the scan reads the bodies of the occurrences in order, from the start
    have hw : Walk s.mode.isStrict D (endSpanOf ts) ts 0
        (recognized s.mode.isStrict D (endSpanOf ts) (ts.drop 0)) :=
      recognized_walk (Nat.zero_le ts.length) fun j hj => absurd hj (Nat.not_lt_zero j)
    rw [List.drop_zero] at hw
    constructor
    · rintro ⟨hrec, hfresh⟩
      obtain ⟨i, -, hocc, hfail, hreads⟩ := hw.1 _ hrec
      obtain ⟨rfl, op, hop, hsp⟩ := (failsAt_maxBlockDepth_iff hD.1 hocc).1 hfail
      refine ⟨rfl, i, op, hocc, hop, hsp, fun j hji hoccj => ?_, fun hpol => ?_⟩
      · exact (reads_iff_firstTooDeep hD.1 hoccj hocc hji).1 (hreads j (Nat.zero_le j) hji hoccj)
      · exact (hw.2 i _ [] (Nat.zero_le i) hocc hfail hreads).2.1 (hfresh hpol)
    · rintro ⟨rfl, i, op, hocc, hop, hsp, hbefore, hfresh⟩
      have hfail : FailsAt s.mode.isStrict D (endSpanOf ts) ts i (.maxBlockDepth D sp) :=
        (failsAt_maxBlockDepth_iff hD.1 hocc).2 ⟨rfl, op, hop, hsp⟩
      have hreads : ReadsBetween s.mode.isStrict D (endSpanOf ts) ts 0 i := fun j _ hji hoccj =>
        (reads_iff_firstTooDeep hD.1 hoccj hocc hji).2 (hbefore j hji hoccj)
      obtain ⟨hrec, hrep⟩ := hw.2 i _ [] (Nat.zero_le i) hocc hfail hreads
      exact ⟨hrec, fun hpol => hrep.2 (hfresh hpol)⟩
  · -- every definition kept was read without error under the limit
    rw [analyzeTokens_ok_program hres, Program.get?_overwriteAll] at hget
    have hempty : ({} : Program).get? name = none := rfl
    rw [hempty, Option.or_none] at hget
    obtain ⟨o, xs, b, hb, hbody⟩ :=
      body_of_mem_recognized (List.mem_reverse.1 (List.mem_of_find?_eq_some hget))
    rw [hbody]
    exact enter_ok_depth hD.1 hb

end Analysis

end COutline
