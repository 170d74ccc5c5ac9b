import COutline.Log.Runtime

/-!
# Setting up logging

Each logging slot is filled at most once.  `Runtime.init` succeeds exactly on a runtime whose
three slots are all empty (`init_ok_iff`), never changes a slot that is already filled
(`init_keeps`), and on a runtime whose preferences are in place fails at once with nothing
changed (`init_of_preferences`): so logging set up once cannot be set up again.

A registry check passes exactly when every code it is given is registered, and otherwise names
the first code that is not (`checkRegistered_eq_error_iff`).  The lexer's and the analyser's
codes are all registered, so the start-up of a fresh process succeeds, with logging set up from
its preferences (`startup_ok`).
-/

namespace COutline

namespace Runtime

/-- `rt'` holds everything `rt` holds: a filled slot keeps its value. -/
def Keeps (rt rt' : Runtime) : Prop :=
  (∀ q, rt.preferences = some q → rt'.preferences = some q) ∧
  (∀ s, rt.service = some s → rt'.service = some s) ∧
  (∀ c, rt.collector = some c → rt'.collector = some c)

theorem Keeps.refl (rt : Runtime) : Keeps rt rt :=
  ⟨fun _ h => h, fun _ h => h, fun _ h => h⟩

@[simp] theorem validateLogging_standard : Limits.standard.validateLogging = .ok () := rfl

variable {rt : Runtime} {p : LoggingPreferences}

/-- Setting up logging fills only empty slots. -/
theorem init_keeps (rt : Runtime) (p : LoggingPreferences) : Keeps rt (rt.init p).1 := by
  simp only [init, validateLogging_standard]
  -- each slot is written only in the branch where it was found empty
  split
  · exact Keeps.refl rt
  · next hpre =>
    have hq : ∀ q, rt.preferences ≠ some q := by simp [hpre]
    split
    · exact ⟨fun q h => absurd h (hq q), fun _ h => h, fun _ h => h⟩
    · next hsvc =>
      have hs : ∀ s, rt.service ≠ some s := by simp [hsvc]
      split
      · exact ⟨fun q h => absurd h (hq q), fun s h => absurd h (hs s), fun _ h => h⟩
      · next hcol =>
        have hc : ∀ c, rt.collector ≠ some c := by simp [hcol]
        exact ⟨fun q h => absurd h (hq q), fun s h => absurd h (hs s),
          fun c h => absurd h (hc c)⟩

/-- Setting up logging succeeds exactly when no slot is filled yet. -/
theorem init_ok_iff (rt : Runtime) (p : LoggingPreferences) :
    (∃ ev, (rt.init p).2 = .ok ev) ↔
      rt.preferences = none ∧ rt.service = none ∧ rt.collector = none := by
  simp only [init, validateLogging_standard]
  constructor
  · rintro ⟨ev, hev⟩
    split at hev
    · cases hev
    · next hpre =>
      split at hev
      · cases hev
      · next hsvc =>
        split at hev
        · cases hev
        · next hcol => exact ⟨hpre, hsvc, hcol⟩
  · rintro ⟨hpre, hsvc, hcol⟩
    simp only [hpre, hsvc, hcol]
    exact ⟨_, rfl⟩

/-- From empty slots, logging is set up with the preferences `p`, the service they choose and
    an empty collector, and announced. -/
theorem init_empty (p : LoggingPreferences) :
    ({} : Runtime).init p =
      (⟨some p, some (Sink.ofPreferences p), some {}⟩, .ok startedEvent) := rfl

/-- Once the preferences are in place, setting up logging again fails on them and changes
    nothing. -/
theorem init_of_preferences {q : LoggingPreferences} (h : rt.preferences = some q) :
    rt.init p = (rt, .error "Runtime preferences already initialized") := by
  simp only [init, validateLogging_standard, h]

/-- Logging set up once cannot be set up again. -/
theorem init_init (p p' : LoggingPreferences) :
    ((({} : Runtime).init p).1.init p').2 = .error "Runtime preferences already initialized" := by
  rw [init_empty, init_of_preferences rfl]

end Runtime

/-! ## The code registry at start-up -/

/-- A registry check passes exactly when every code it is given is registered. -/
theorem checkRegistered_eq_ok_iff (what : String) (codes : List String) :
    checkRegistered what codes = .ok () ↔ ∀ c ∈ codes, (CodeInfo.find? c).isSome := by
  unfold checkRegistered
  split
  · next c hc =>
    -- the code the search stopped at is listed and not registered
    have hnone : CodeInfo.find? c = none := by simpa using List.find?_some hc
    have hmem := List.mem_of_find?_eq_some hc
    constructor
    · intro h
      cases h
    · intro h
      have := h c hmem
      rw [hnone] at this
      cases this
  · next hnone =>
    rw [List.find?_eq_none] at hnone
    constructor
    · intro _ c hc
      simpa [Option.isSome_iff_ne_none] using hnone c hc
    · intro _
      rfl

/-- A failing registry check names the first code that is not registered, as a code of what it
    checks. -/
theorem checkRegistered_eq_error_iff (what : String) (codes : List String) (m : String) :
    checkRegistered what codes = .error m ↔
      ∃ pre c post, codes = pre ++ c :: post ∧ (∀ x ∈ pre, (CodeInfo.find? x).isSome) ∧
        CodeInfo.find? c = none ∧
        m = what ++ " code " ++ c ++ " not found in metadata registry" := by
  unfold checkRegistered
  split
  · next c hc =>
    obtain ⟨hc', pre, post, hsplit, hpre⟩ := List.find?_eq_some_iff_append.1 hc
    constructor
    · intro h
      cases h
      refine ⟨pre, c, post, hsplit, fun x hx => ?_, by simpa using hc', rfl⟩
      simpa using hpre x hx
    · rintro ⟨pre', c', post', hsplit', hpre', hc'', rfl⟩
      -- the first unregistered code is the same however the list is cut
      have hfind : codes.find? (fun c => (CodeInfo.find? c).isNone) = some c' := by
        rw [hsplit', List.find?_append, List.find?_eq_none.2 (fun x hx => by
          simpa [Option.isSome_iff_ne_none] using hpre' x hx)]
        simp [hc'']
      rw [hc] at hfind
      cases hfind
      rfl
  · next hnone =>
    simp only [reduceCtorEq, false_iff, not_exists, not_and]
    intro pre c post hsplit _ hc _
    rw [List.find?_eq_none] at hnone
    exact absurd (by simpa using hc) (hnone c (by rw [hsplit]; simp))

/-- Every code the lexer and the analyser report is registered. -/
theorem lexicalCodes_registered : ∀ c ∈ lexicalCodes, (CodeInfo.find? c).isSome := by decide

theorem syntaxCodes_registered : ∀ c ∈ syntaxCodes, (CodeInfo.find? c).isSome := by decide

/-- The start-up of a fresh process succeeds: logging is set up from its preferences and the
    registry checks pass, with the start of logging and the two limits announcements logged. -/
theorem Runtime.startup_ok (p : LoggingPreferences) :
    Runtime.startup p =
      .ok (⟨some p, some (Sink.ofPreferences p), some {}⟩,
        [Runtime.startedEvent, lexicalLimitsEvent, syntaxLimitsEvent]) := by
  have hlex := (checkRegistered_eq_ok_iff "Lexical error" lexicalCodes).2 lexicalCodes_registered
  have hsyn := (checkRegistered_eq_ok_iff "Syntax" syntaxCodes).2 syntaxCodes_registered
  simp only [Runtime.startup, Runtime.init_empty, initLexicalLogging, initSyntaxLogging, hlex,
    hsyn]
  rfl

end COutline
