import Mathlib.Logic.Function.Iterate
import COutline.Proofs.Lexer.Faults

/-!
# Every pass of the lexer ends

The lexer is a loop over the unread rest of the text.  One iteration either skips the head
character or hands the head to a rule, which takes a lexeme, refuses one with a fault, or finds
the counted token past the limit.  Every rule measures what it covers inside the rest: at least
one character and at most all of them (`step_fits`), so that in bytes it ends between two
characters of the rest and never after it.  Each iteration therefore moves on over whole
characters, and the offset grows by at least one byte.

`Loop.next` is one iteration of the loop as a function of the loop's state; it leaves unchanged
what the loop will answer (`Loop.outcome_next`), and it shortens the rest until the loop has its
answer (`Loop.left_next_lt`).  So after as many iterations as the text has characters the loop
has answered, with the answer of the lexer (`tokenize_loop_ends`).
-/

namespace COutline

/-- How many characters a class claims: none, or its lexeme, complete or not. -/
def Scan.claimed : Scan → Nat
  | .noMatch => 0
  | .matched n => n
  | .unterminated n => n

namespace Lexeme

/-! ## Every class claims at most the text it is given -/

variable {cs : List Char} {b : Bool} {k n : Nat}

theorem blockBody_le (h : blockBody cs b k = some n) : n ≤ k + cs.length := by
  fun_induction blockBody cs b k <;> simp_all <;> omega

theorem stringBody_le (h : stringBody cs k = some n) : n ≤ k + cs.length := by
  fun_induction stringBody cs k <;> simp_all <;> omega

/-- A class that starts claims at least one character and at most all of them. -/
def Claims (cs : List Char) (s : Scan) : Prop :=
  s ≠ .noMatch → 0 < s.claimed ∧ s.claimed ≤ cs.length

theorem ofRun_claims {m : Nat} (hm : m ≤ cs.length) : Claims cs (Scan.ofRun m) := by
  intro h
  by_cases hm0 : m = 0
  · rw [Scan.ofRun, if_pos hm0] at h
    exact absurd rfl h
  · rw [Scan.ofRun, if_neg hm0]
    exact ⟨Nat.pos_of_ne_zero hm0, hm⟩

theorem identifier_claims (cs : List Char) : Claims cs (identifier cs) :=
  ofRun_claims (List.takeWhile_prefix _).length_le

theorem number_claims (cs : List Char) : Claims cs (number cs) :=
  ofRun_claims (List.takeWhile_prefix _).length_le

theorem stringLiteral_claims (cs : List Char) : Claims cs (stringLiteral cs) := by
  intro h
  unfold stringLiteral at *
  split at *
  · split at *
    · next hb =>
      have := stringBody_le hb
      have := stringBody_gt hb
      simp [Scan.claimed]
      omega
    · simp [Scan.claimed]
  · exact absurd rfl h

theorem lineComment_claims (cs : List Char) : Claims cs (lineComment cs) := by
  intro h
  unfold lineComment at *
  split at *
  · have := (List.takeWhile_prefix (l := ‹List Char›) (fun c => !endsLine c)).length_le
    simp [Scan.claimed]
    omega
  · exact absurd rfl h

theorem blockComment_claims (cs : List Char) : Claims cs (blockComment cs) := by
  intro h
  unfold blockComment at *
  split at *
  · split at *
    · next hb =>
      have := blockBody_le hb
      have := blockBody_gt hb
      simp [Scan.claimed]
      omega
    · simp [Scan.claimed]
  · exact absurd rfl h

/-- The bounds of a complete lexeme read off the class's claim. -/
theorem Claims.matched {s : List Char} {r : Scan} (h : Claims s r) (hr : r = .matched n) :
    0 < n ∧ n ≤ s.length := by
  have := h (by rw [hr]; simp)
  rwa [hr] at this

theorem Claims.unterminated {s : List Char} {r : Scan} (h : Claims s r)
    (hr : r = .unterminated n) : 0 < n ∧ n ≤ s.length := by
  have := h (by rw [hr]; simp)
  rwa [hr] at this

end Lexeme

namespace Lexer

/-! ## What one iteration covers -/

/-- The characters one iteration covers: the character it skips, or the lexeme a rule takes or
    refuses. -/
def Step.width : Step → Nat
  | .skip => 1
  | .token _ n _ => n
  | .fault _ n => n

/-- `w` characters of the unread rest `cs`: at least one and at most all of them. -/
def Fits (cs : List Char) (w : Nat) : Prop := 0 < w ∧ w ≤ cs.length

section Rules

variable {c : Char} {cs : List Char} {n : Nat} {h : 0 < n}

theorem comment_width : (comment cs n h).width = n := by
  unfold comment
  split <;> rfl

theorem identifier_width : (identifier cs n h).width = n := by
  unfold identifier
  split <;> rfl

theorem slash_fits : Fits (c :: cs) (slash (c :: cs)).width := by
  unfold slash
  split
  · next m hm => rw [comment_width]; exact (Lexeme.lineComment_claims _).matched hm
  · split
    · next m hm => rw [comment_width]; exact (Lexeme.blockComment_claims _).matched hm
    · next m hm => exact (Lexeme.blockComment_claims _).unterminated hm
    · exact ⟨Nat.one_pos, by simp [Step.width]⟩

theorem string_fits : Fits (c :: cs) (string (c :: cs)).width := by
  unfold string
  split
  · next m hm =>
    split
    · exact (Lexeme.stringLiteral_claims _).matched hm
    · exact (Lexeme.stringLiteral_claims _).matched hm
  · next m hm => exact (Lexeme.stringLiteral_claims _).unterminated hm
  · exact ⟨Nat.one_pos, by simp [Step.width]⟩

theorem word_fits : Fits (c :: cs) (word (c :: cs)).width := by
  unfold word
  split
  · next w hw =>
    -- a reserved word is taken only where it stands whole at the head
    refine ⟨ReservedWord.atHead?_word_pos hw, ?_⟩
    obtain ⟨-, hword⟩ := ReservedWord.atHead?_eq_some hw
    have hlen := congrArg List.length hword
    rw [String.length_toList] at hlen
    rw [Step.width, hlen]
    exact (List.takeWhile_prefix _).length_le
  · split
    · next m hm => rw [identifier_width]; exact (Lexeme.identifier_claims _).matched hm
    · rw [identifier_width]; exact ⟨Nat.one_pos, by simp⟩

theorem constant_fits : Fits (c :: cs) (constant (c :: cs)).width := by
  unfold constant
  split
  · next m hm => exact (Lexeme.number_claims _).matched hm
  · exact ⟨Nat.one_pos, by simp [Step.width]⟩

theorem operatorLength_le (c : Char) (cs : List Char) :
    operatorLength (c :: cs) ≤ (c :: cs).length := by
  cases cs with
  | nil => simp [operatorLength]
  | cons d ds =>
    rw [operatorLength]
    split <;> simp

end Rules

/-- A test of the dispatch keeps the bound when both of its rules fit. -/
theorem Fits.ite {cs : List Char} {p : Prop} [Decidable p] {a b : Step}
    (ha : Fits cs a.width) (hb : Fits cs b.width) : Fits cs (if p then a else b).width := by
  by_cases hp : p
  · rw [if_pos hp]; exact ha
  · rw [if_neg hp]; exact hb

/-- Every iteration covers at least one character of the unread rest and at most all of them. -/
theorem step_fits (c : Char) (cs : List Char) : Fits (c :: cs) (step (c :: cs)).width := by
  have hone : Fits (c :: cs) 1 := ⟨Nat.one_pos, by simp⟩
  have hpair : Fits (c :: cs)
      (Step.token .operator (operatorLength (c :: cs)) (operatorLength_pos _)).width :=
    ⟨operatorLength_pos _, operatorLength_le c cs⟩
  simp only [step]
  -- the rules in the order of the dispatch: `/`, the four brackets, `[ ] ;` and `*`, the
  -- operator pairs, digits, `"`, identifier starts, and the skip
  apply Fits.ite slash_fits
  apply Fits.ite hone
  apply Fits.ite hone
  apply Fits.ite hone
  apply Fits.ite hone
  apply Fits.ite hone
  apply Fits.ite hone
  apply Fits.ite hpair
  apply Fits.ite constant_fits
  apply Fits.ite string_fits
  apply Fits.ite word_fits
  exact hone

/-- In bytes, what an iteration covers is at least one byte, ends between two characters of the
    rest and never after it. -/
theorem Fits.bytes {cs : List Char} {w : Nat} (h : Fits cs w) :
    0 < Utf8.size (cs.take w) ∧ Utf8.size (cs.take w) ≤ Utf8.size cs ∧
      Utf8.isBoundary cs (Utf8.size (cs.take w)) = true := by
  obtain ⟨hpos, hle⟩ := h
  obtain ⟨d, ds, hcs⟩ : ∃ d ds, cs = d :: ds := by
    cases cs with
    | nil => simp at hle; omega
    | cons d ds => exact ⟨d, ds, rfl⟩
  have hsplit := Utf8.splitAt?_append (cs.take w) (cs.drop w)
  rw [List.take_append_drop] at hsplit
  refine ⟨?_, ?_, by simp [Utf8.isBoundary, hsplit]⟩
  · obtain ⟨w', rfl⟩ : ∃ w', w = w' + 1 := ⟨w - 1, by omega⟩
    rw [hcs, List.take_succ_cons, Utf8.size_cons]
    have := d.utf8Size_pos
    omega
  · conv => rhs; rw [← List.take_append_drop w cs]
    rw [Utf8.size_append]
    omega

/-! ## The loop -/

/-- The lexer's loop between two iterations: reading on at `rest` with the scanner `s`, or
    stopped with its answer. -/
inductive Loop where
  | reading (rest : List Char) (s : Scanner)
  | stopped (r : Except LexError Scanner)

namespace Loop

variable (p : LexicalPreferences) (file : String)

/-- One iteration of the loop: the body of `run` once, with the recursive call left as the next
    state.  A loop with nothing left to read, or stopped, stays as it is. -/
def next : Loop → Loop
  | .reading [] s => .reading [] s
  | .reading (c :: rest) s =>
    match step (c :: rest) with
    | .skip => .reading rest { s with pos := s.pos.advance c, metrics := s.metrics.skip p }
    | .token kind n _ =>
      let lexeme := (c :: rest).take n
      let span := Span.covering s.pos lexeme
      let tok := Token.make kind (String.ofList lexeme) file span
      let counts := !tok.isComment || p.countCommentsTowardsLimit
      let counted := if counts then s.counted + 1 else s.counted
      if counts && counted > Limits.standard.maxTokenCount then
        .stopped (.error (.tooManyTokens counted span))
      else
        .reading ((c :: rest).drop n)
          ⟨span.stop, s.tokens.push tok, counted, s.metrics.record p tok⟩
    | .fault f n => .stopped (.error (place f file s.pos ((c :: rest).take n)))
  | .stopped r => .stopped r

/-- What the loop will answer from where it stands. -/
def outcome : Loop → Except LexError Scanner
  | .reading rest s => run p file rest s
  | .stopped r => r

/-- The answer of a loop that has one: it has read everything, or it has stopped. -/
def answer? : Loop → Option (Except LexError Scanner)
  | .reading [] s => some (.ok s)
  | .reading (_ :: _) _ => none
  | .stopped r => some r

/-- The characters left to read. -/
def left : Loop → Nat
  | .reading rest _ => rest.length
  | .stopped _ => 0

/-- The loop where `tokenize` starts it: the whole text unread, nothing found yet. -/
def start (source : String) : Loop := .reading source.toList ⟨Position.start, #[], 0, {}⟩

/-- One iteration leaves the loop's answer as it was. -/
theorem outcome_next (st : Loop) : outcome p file (next p file st) = outcome p file st := by
  cases st with
  | reading rest s =>
    cases rest with
    | nil => rfl
    | cons c rest =>
      show outcome p file (next p file (.reading (c :: rest) s)) = run p file (c :: rest) s
      rw [run]
      cases hstep : step (c :: rest) with
      | skip => simp only [next, hstep, outcome]
      | token kind n hn =>
        dsimp only [next]
        rw [hstep]
        dsimp only
        rw [apply_ite (outcome p file)]
        rfl
      | fault f n => simp only [next, hstep, outcome]
  | stopped r => rfl

theorem outcome_of_answer? {st : Loop} {r : Except LexError Scanner} (h : answer? st = some r) :
    outcome p file st = r := by
  cases st with
  | reading rest s =>
    cases rest with
    | nil =>
      cases h
      rw [outcome, run]
    | cons c rest => cases h
  | stopped r' =>
    cases h
    rfl

theorem next_of_answer? {st : Loop} {r : Except LexError Scanner} (h : answer? st = some r) :
    next p file st = st := by
  cases st with
  | reading rest s =>
    cases rest with
    | nil => rfl
    | cons c rest => cases h
  | stopped r' => rfl

/-- An iteration of a loop without its answer covers what `step` covers at the head of the rest:
    the loop stops there, or reads on after those characters, the position moved over them. -/
theorem next_reading (c : Char) (rest : List Char) (s : Scanner) :
    (∃ r, next p file (.reading (c :: rest) s) = .stopped r) ∨
      ∃ s', next p file (.reading (c :: rest) s) =
          .reading ((c :: rest).drop (step (c :: rest)).width) s' ∧
        s'.pos = s.pos.advanceList ((c :: rest).take (step (c :: rest)).width) := by
  dsimp only [next]
  cases hstep : step (c :: rest) with
  | skip => exact .inr ⟨_, rfl, rfl⟩
  | token kind n hn =>
    -- whether the token counts, then whether it is past the limit
    dsimp only
    split <;> split
    · exact .inl ⟨_, rfl⟩
    · exact .inr ⟨_, rfl, rfl⟩
    · exact .inl ⟨_, rfl⟩
    · exact .inr ⟨_, rfl, rfl⟩
  | fault f n => exact .inl ⟨_, rfl⟩

/-- An iteration of a loop without its answer shortens what is left to read. -/
theorem left_next_lt {st : Loop} (h : answer? st = none) : left (next p file st) < left st := by
  cases st with
  | reading rest s =>
    cases rest with
    | nil => cases h
    | cons c rest =>
      rcases next_reading p file c rest s with ⟨r, hr⟩ | ⟨s', hs', -⟩
      · rw [hr]
        simp [left]
      · rw [hs', left, left, List.length_drop]
        have hpos := (step_fits c rest).1
        have hle := (step_fits c rest).2
        omega
  | stopped r => cases h

/-- After as many iterations as it has characters left, the loop has its answer, the one it was
    going to give. -/
theorem answer?_iterate (st : Loop) (k : Nat) (hk : left st ≤ k) :
    answer? ((next p file)^[k] st) = some (outcome p file st) := by
  induction k generalizing st with
  | zero =>
    cases st with
    | reading rest s =>
      cases rest with
      | nil =>
        show some (Except.ok s) = some (run p file [] s)
        rw [run]
      | cons c rest => simp [left] at hk
    | stopped r => rfl
  | succ k ih =>
    cases ha : answer? st with
    | some r =>
      rw [Function.iterate_fixed (next_of_answer? p file ha), ha, outcome_of_answer? p file ha]
    | none =>
      have hlt := left_next_lt p file ha
      rw [Function.iterate_succ_apply, ih _ (by omega), outcome_next]

/-- Every state the loop reaches from the start of `source` reads on after a prefix of it, at
    the position that prefix leads to. -/
theorem reads_iterate (source : String) (k : Nat) :
    ∀ rest s, (next p file)^[k] (start source) = .reading rest s →
      ∃ read, source.toList = read ++ rest ∧ s.pos = Position.start.advanceList read := by
  induction k with
  | zero =>
    intro rest s h
    cases h
    exact ⟨[], rfl, rfl⟩
  | succ k ih =>
    intro rest' s' h
    rw [Function.iterate_succ_apply'] at h
    obtain ⟨st, hst⟩ : ∃ st, (next p file)^[k] (start source) = st := ⟨_, rfl⟩
    rw [hst] at h
    cases st with
    | stopped r => cases h
    | reading rest s =>
      obtain ⟨read, hsrc, hpos⟩ := ih rest s hst
      cases rest with
      | nil => cases h; exact ⟨read, hsrc, hpos⟩
      | cons c rest =>
        rcases next_reading p file c rest s with ⟨r, hr⟩ | ⟨s'', hs'', hpos''⟩
        · rw [hr] at h
          cases h
        · rw [hs''] at h
          cases h
          refine ⟨read ++ (c :: rest).take (step (c :: rest)).width, ?_, ?_⟩
          · rw [List.append_assoc, List.take_append_drop, hsrc]
          · rw [hpos'', hpos, Position.advanceList_append]

end Loop

/-! ## The loop over a whole text -/

/-- One iteration over the text `src`, at the byte offset `offset` with `rest` unread, covering
    `w` characters: the offset falls between two characters of `src` and leaves `rest` after
    it; `w` is at least one and at most all the characters of `rest`; in bytes that is at least
    one byte, and it ends between two characters of `rest`, never after it. -/
structure InBounds (src : List Char) (offset : Nat) (rest : List Char) (w : Nat) : Prop where
  split : ∃ read, Utf8.splitAt? src offset = some (read, rest)
  fits : Fits rest w
  bytes_pos : 0 < Utf8.size (rest.take w)
  bytes_le : Utf8.size (rest.take w) ≤ Utf8.size rest
  bytes_boundary : Utf8.isBoundary rest (Utf8.size (rest.take w)) = true

/-- The lexer's loop over `source` has its answer after at most one iteration per character,
    the answer of the run that `tokenize` reports.  Every iteration before that reads on from
    the byte offset of the characters read so far, which falls between two characters of the
    source, and covers at least one and at most all of the characters left (in bytes: at least
    one, ending between two characters and not after the text); the next iteration reads on
    after exactly those characters, its offset larger by their bytes. -/
theorem tokenize_loop_ends (p : LexicalPreferences) (source file : String)
    (hfit : Utf8.size source.toList < Position.offsetRange) :
    Loop.answer? ((Loop.next p file)^[source.length] (Loop.start source)) =
        some (run p file source.toList ⟨Position.start, #[], 0, {}⟩) ∧
    ∀ k rest s, (Loop.next p file)^[k] (Loop.start source) = .reading rest s → rest ≠ [] →
      InBounds source.toList s.pos.offset rest (step rest).width ∧
      ∀ rest' s', (Loop.next p file)^[k + 1] (Loop.start source) = .reading rest' s' →
        rest' = rest.drop (step rest).width ∧
        s'.pos.offset = s.pos.offset + Utf8.size (rest.take (step rest).width) := by
  refine ⟨Loop.answer?_iterate p file _ _
    (by rw [Loop.start, Loop.left, String.length_toList]), ?_⟩
  intro k rest s hk hne
  obtain ⟨c, rest, rfl⟩ : ∃ c r, rest = c :: r := List.exists_cons_of_ne_nil hne
  obtain ⟨read, hsrc, hpos⟩ := Loop.reads_iterate p file source k _ _ hk
  -- the source fits the offset counter, so offsets are byte sizes of what was read
  have hoffset : ∀ pre, pre <+: source.toList →
      (Position.start.advanceList pre).offset = Utf8.size pre := fun pre hpre =>
    Position.start_advanceList_offset pre (by
      obtain ⟨post, hpost⟩ := hpre
      have := congrArg Utf8.size hpost
      rw [Utf8.size_append] at this
      omega)
  have hfits := step_fits c rest
  obtain ⟨hbpos, hble, hbound⟩ := hfits.bytes
  have hread : (Position.start.advanceList read).offset = Utf8.size read :=
    hoffset read ⟨_, hsrc.symm⟩
  have hs : s.pos.offset = Utf8.size read := by rw [hpos, hread]
  refine ⟨⟨⟨read, ?_⟩, hfits, hbpos, hble, hbound⟩, ?_⟩
  · rw [hs, hsrc]
    exact Utf8.splitAt?_append read (c :: rest)
  · intro rest' s' hk'
    rw [Function.iterate_succ_apply', hk] at hk'
    rcases Loop.next_reading p file c rest s with ⟨r, hr⟩ | ⟨s'', hs'', hpos''⟩
    · rw [hr] at hk'
      cases hk'
    · rw [hs''] at hk'
      cases hk'
      refine ⟨rfl, ?_⟩
      -- the next offset is the byte size of what was read, one lexeme more
      have hpre : read ++ (c :: rest).take (step (c :: rest)).width <+: source.toList :=
        ⟨(c :: rest).drop (step (c :: rest)).width, by
          rw [List.append_assoc, List.take_append_drop, hsrc]⟩
      rw [hpos'', hpos, ← Position.advanceList_append, hoffset _ hpre, Utf8.size_append, hread]

/-- The loop over a declaration with a comment that holds a two-byte character. -/
theorem tokenize_loop_ends_declaration :
    Utf8.size "int x; /* é */".toList < Position.offsetRange ∧
    Loop.answer? ((Loop.next {} "f.c")^["int x; /* é */".length] (Loop.start "int x; /* é */")) =
        some (run {} "f.c" "int x; /* é */".toList ⟨Position.start, #[], 0, {}⟩) ∧
    ∀ k rest s, (Loop.next {} "f.c")^[k] (Loop.start "int x; /* é */") = .reading rest s →
      rest ≠ [] →
      InBounds "int x; /* é */".toList s.pos.offset rest (step rest).width ∧
      ∀ rest' s',
        (Loop.next {} "f.c")^[k + 1] (Loop.start "int x; /* é */") = .reading rest' s' →
        rest' = rest.drop (step rest).width ∧
        s'.pos.offset = s.pos.offset + Utf8.size (rest.take (step rest).width) := by
  have hfit : Utf8.size "int x; /* é */".toList < Position.offsetRange := by decide
  exact ⟨hfit, tokenize_loop_ends {} "int x; /* é */" "f.c" hfit⟩

end Lexer

end COutline
