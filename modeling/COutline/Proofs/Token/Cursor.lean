import COutline.Token.Stream

/-!
# The cursor discipline of token streams

A caller sees a token stream only through its calls.  Every call leaves the tokens as they are
and moves the cursor forward, if at all, and the calls that take tokens hand back exactly the
tokens the cursor passed over (`call_moves`).  Over any sequence of calls from a fresh stream
the tokens taken, put end to end, are therefore the tokens before the cursor, and the count of
tokens left is the exact difference of the length and the position (`run_cursor_discipline`).

A run of kinds is taken whole or not at all (`nextIfKinds_of_matches`,
`nextIfKinds_of_not_matches`), and the
stream without comments starts afresh at the cursor.  A peek `n` places ahead looks at the word
sum of the cursor and `n`: it is the token `n` places ahead as long as that sum does not wrap,
and wraps around onto a token already taken when `n` is near `2 ^ 64`
(`peekNth_wraps_onto_taken`).
-/

namespace COutline

namespace TokenStream

/-- One call a caller can make on a stream. -/
inductive Call where
  | hasMore
  | next
  | nextIfKind (k : TokenKind)
  | nextIfKinds (ks : List TokenKind)
  | peek
  | peekKind
  | peekNth (n : Nat)
  | position
  | remaining
  | length
  | isEmpty
  | endSpan
  | tokens
deriving Repr, DecidableEq

/-- What a call answers. -/
inductive Answer where
  | flag (b : Bool)
  | token (t : Option Token)
  | run (ts : List Token)
  | kind (k : Option TokenKind)
  | count (n : Nat)
  | span (s : Span)
  | all (ts : List Token)
deriving Repr, DecidableEq

/-- Make the call `c` on `s`: its answer and the stream after it. -/
def call (s : TokenStream) : Call → Answer × TokenStream
  | .hasMore => (.flag s.hasMore, s)
  | .next => (.token s.next.1, s.next.2)
  | .nextIfKind k => (.token (s.nextIfKind k).1, (s.nextIfKind k).2)
  | .nextIfKinds ks => (.run (s.nextIfKinds ks).1, (s.nextIfKinds ks).2)
  | .peek => (.token s.peek?, s)
  | .peekKind => (.kind s.peekKind?, s)
  | .peekNth n => (.token (s.peekNth? n), s)
  | .position => (.count s.position, s)
  | .remaining => (.count s.remaining, s)
  | .length => (.count s.length, s)
  | .isEmpty => (.flag s.isEmpty, s)
  | .endSpan => (.span s.endSpan, s)
  | .tokens => (.all s.tokens.toList, s)

/-- The tokens a call took: what `next`, `nextIfKind` and `nextIfKinds` hand back.  The other
    calls only look. -/
def Call.taken : Call → Answer → List Token
  | .next, .token t => t.toList
  | .nextIfKind _, .token t => t.toList
  | .nextIfKinds _, .run r => r
  | _, _ => []

/-- Make the calls `cs` in order: each call with its answer, and the stream after the last. -/
def run (s : TokenStream) : List Call → List (Call × Answer) × TokenStream
  | [] => ([], s)
  | c :: cs => ((c, (s.call c).1) :: ((s.call c).2.run cs).1, ((s.call c).2.run cs).2)

/-- The tokens taken over a trace of calls, end to end. -/
def takenBy (trace : List (Call × Answer)) : List Token := trace.flatMap fun p => p.1.taken p.2

/-! ## One call -/

section Call

variable (s : TokenStream)

/-- What the cursor passed over between two places. -/
theorem extract_self_toList : (s.tokens.extract s.cursor s.cursor).toList = [] := by
  simp

theorem next_moves :
    s.next.2.tokens = s.tokens ∧ s.cursor ≤ s.next.2.cursor ∧
      s.next.1.toList = (s.tokens.extract s.cursor s.next.2.cursor).toList := by
  unfold next
  split
  · next h =>
    refine ⟨rfl, Nat.le_succ _, ?_⟩
    simp [List.extract_eq_take_drop, List.take_one, h]
  · exact ⟨rfl, Nat.le_refl _, by simp⟩

/-- Kinds that match a run of the same length, pair by pair. -/
theorem all_zip_kind_iff {run : List Token} {ks : List TokenKind} (h : run.length = ks.length) :
    (run.zip ks).all (fun p => p.1.kind == p.2) = true ↔ run.map Token.kind = ks := by
  induction run generalizing ks with
  | nil =>
    cases ks with
    | nil => simp
    | cons k ks => simp at h
  | cons t run ih =>
    cases ks with
    | nil => simp at h
    | cons k ks =>
      simp only [List.length_cons, Nat.add_right_cancel_iff] at h
      simp [ih h]

/-- The run a call `nextIfKinds ks` looks at: the next `ks.length` tokens, or fewer at the end. -/
def runAhead (ks : List TokenKind) : List Token :=
  (s.tokens.extract s.cursor (s.cursor + ks.length)).toList

/-- Whether `nextIfKinds ks` takes its run: the run is all there and its kinds are `ks`. -/
def MatchesAhead (ks : List TokenKind) : Prop :=
  s.cursor + ks.length ≤ s.tokens.size ∧ (s.runAhead ks).map Token.kind = ks

theorem runAhead_length {ks : List TokenKind} (h : s.cursor + ks.length ≤ s.tokens.size) :
    (s.runAhead ks).length = ks.length := by
  simp only [runAhead, Array.length_toList, Array.size_extract]
  omega

/-- A run that is all there with the kinds asked for is taken, and the cursor moves past it. -/
theorem nextIfKinds_of_matches {ks : List TokenKind} (h : s.MatchesAhead ks) :
    (s.nextIfKinds ks).1 = s.runAhead ks ∧ (s.nextIfKinds ks).2.cursor = s.cursor + ks.length ∧
      (s.nextIfKinds ks).2.tokens = s.tokens := by
  have hall : ((s.tokens.extract s.cursor (s.cursor + ks.length)).toList.zip ks).all
      (fun p => p.1.kind == p.2) = true := (all_zip_kind_iff (runAhead_length s h.1)).2 h.2
  dsimp only [nextIfKinds]
  rw [dif_pos h.1, if_pos hall]
  exact ⟨rfl, rfl, rfl⟩

/-- Otherwise nothing is taken and the stream stays as it is. -/
theorem nextIfKinds_of_not_matches {ks : List TokenKind} (h : ¬ s.MatchesAhead ks) :
    s.nextIfKinds ks = ([], s) := by
  dsimp only [nextIfKinds]
  split
  · next hstop =>
    have hlen := runAhead_length s hstop
    have hall : ¬ ((s.tokens.extract s.cursor (s.cursor + ks.length)).toList.zip ks).all
        (fun p => p.1.kind == p.2) = true :=
      fun hall => h ⟨hstop, (all_zip_kind_iff hlen).1 hall⟩
    rw [if_neg hall]
  · rfl

theorem nextIfKinds_moves (ks : List TokenKind) :
    (s.nextIfKinds ks).2.tokens = s.tokens ∧ s.cursor ≤ (s.nextIfKinds ks).2.cursor ∧
      (s.nextIfKinds ks).1 = (s.tokens.extract s.cursor (s.nextIfKinds ks).2.cursor).toList := by
  by_cases h : s.MatchesAhead ks
  · obtain ⟨hrun, hcur, htok⟩ := nextIfKinds_of_matches s h
    rw [hrun, hcur]
    exact ⟨htok, Nat.le_add_right _ _, rfl⟩
  · rw [nextIfKinds_of_not_matches s h]
    exact ⟨rfl, Nat.le_refl _, (extract_self_toList s).symm⟩

/-- Every call keeps the tokens, moves the cursor forward if at all, and takes exactly the tokens
    the cursor passed over. -/
theorem call_moves (c : Call) :
    (s.call c).2.tokens = s.tokens ∧ s.cursor ≤ (s.call c).2.cursor ∧
      c.taken (s.call c).1 = (s.tokens.extract s.cursor (s.call c).2.cursor).toList := by
  cases c with
  | next => exact next_moves s
  | nextIfKind k =>
    -- a kind that does not match leaves the stream as it is
    dsimp only [call, Call.taken, nextIfKind]
    split
    · exact next_moves s
    · exact ⟨rfl, Nat.le_refl _, (extract_self_toList s).symm⟩
  | nextIfKinds ks => exact nextIfKinds_moves s ks
  | _ => exact ⟨rfl, Nat.le_refl _, (extract_self_toList s).symm⟩

end Call

/-! ## Runs of calls -/

/-- Over a run of calls the tokens stay, the cursor only moves forward, and the tokens taken are
    the tokens the cursor passed over, in order. -/
theorem run_moves (s : TokenStream) (cs : List Call) :
    (s.run cs).2.tokens = s.tokens ∧ s.cursor ≤ (s.run cs).2.cursor ∧
      takenBy (s.run cs).1 = (s.tokens.extract s.cursor (s.run cs).2.cursor).toList := by
  induction cs generalizing s with
  | nil => exact ⟨rfl, Nat.le_refl _, (extract_self_toList s).symm⟩
  | cons c cs ih =>
    obtain ⟨htok, hle, htaken⟩ := call_moves s c
    obtain ⟨htok', hle', htaken'⟩ := ih (s.call c).2
    refine ⟨htok'.trans htok, Nat.le_trans hle hle', ?_⟩
    show c.taken (s.call c).1 ++ takenBy ((s.call c).2.run cs).1 = _
    rw [htaken, htaken', htok, ← Array.toList_append, Array.extract_append_extract,
      Nat.min_eq_left hle, Nat.max_eq_right hle']
    rfl

/-- The call `peekNth n` looks at the token whose index is the word sum of the cursor and `n`;
    while that sum does not wrap, this is the token `n` places ahead, or none past the end. -/
theorem peekNth?_eq (s : TokenStream) (n : Nat) :
    s.peekNth? n = s.tokens.toList[(s.position + n) % wordModulus]? ∧
      (s.position + n < wordModulus → s.peekNth? n = s.tokens.toList[s.position + n]?) := by
  refine ⟨by simp [peekNth?, position], fun h => ?_⟩
  have h' : s.cursor + n < wordModulus := h
  simp [peekNth?, position, Nat.mod_eq_of_lt h']

/-- Dropping comments starts a new stream at the cursor's tokens, in order. -/
theorem withoutComments_tokens (s : TokenStream) :
    s.withoutComments.position = 0 ∧
      s.withoutComments.tokens.toList = (s.tokens.toList.drop s.position).filter
        (fun t => t.kind ≠ .comment) := by
  refine ⟨rfl, ?_⟩
  have hrest : s.rest = s.tokens.toList.drop s.cursor := by
    simp only [rest, Array.toList_extract, List.extract_eq_take_drop]
    exact List.take_of_length_le (by simp)
  simp only [withoutComments, ofList, hrest, position, TokenKind.isIgnorable, List.toList_toArray]
  exact List.filter_congr fun t _ => by simp [Bool.beq_eq_decide_eq]

/-- The discipline a caller can rely on, from a fresh stream over `ts` and any calls `cs`: the
    tokens never change; the position never passes the length, so the count left is their exact
    difference; the tokens taken, end to end, are the tokens before the cursor; and every call
    from any stream keeps its tokens and never moves the cursor back.  A run of kinds is taken
    whole, and the cursor moves past it, exactly when it is all there with the kinds asked for;
    otherwise nothing is taken.  A peek looks at the word sum of the cursor and the distance, which
    is the token that far ahead while the sum does not wrap, and the stream without comments is
    a fresh stream of the tokens from the cursor on, comments left out. -/
theorem run_cursor_discipline (ts : List Token) (cs : List Call) :
    ((ofList ts).run cs).2.tokens.toList = ts ∧
    ((ofList ts).run cs).2.position ≤ ((ofList ts).run cs).2.length ∧
    ((ofList ts).run cs).2.remaining + ((ofList ts).run cs).2.position =
      ((ofList ts).run cs).2.length ∧
    takenBy ((ofList ts).run cs).1 = ts.take ((ofList ts).run cs).2.position ∧
    (∀ (s : TokenStream) (c : Call),
      (s.call c).2.tokens = s.tokens ∧ s.position ≤ (s.call c).2.position) ∧
    (∀ (s : TokenStream) (ks : List TokenKind),
      (s.MatchesAhead ks → (s.nextIfKinds ks).1 = s.runAhead ks ∧
        (s.runAhead ks).map Token.kind = ks ∧
        (s.nextIfKinds ks).2.position = s.position + ks.length) ∧
      (¬ s.MatchesAhead ks → (s.nextIfKinds ks).1 = [] ∧ (s.nextIfKinds ks).2 = s)) ∧
    (∀ (s : TokenStream) (n : Nat),
      s.peekNth? n = s.tokens.toList[(s.position + n) % wordModulus]? ∧
      (s.position + n < wordModulus → s.peekNth? n = s.tokens.toList[s.position + n]?)) ∧
    (∀ s : TokenStream, s.withoutComments.position = 0 ∧
      s.withoutComments.tokens.toList = (s.tokens.toList.drop s.position).filter
        (fun t => t.kind ≠ .comment)) := by
  obtain ⟨htok, -, htaken⟩ := run_moves (ofList ts) cs
  have hsize := ((ofList ts).run cs).2.cursor_le
  have htoks : ((ofList ts).run cs).2.tokens.toList = ts := by rw [htok]; rfl
  refine ⟨htoks, hsize, by simp only [remaining, position, length]; omega, ?_,
    fun s c => ⟨(call_moves s c).1, (call_moves s c).2.1⟩,
    fun s ks => ⟨fun h => ?_, fun h => ?_⟩,
    peekNth?_eq, withoutComments_tokens⟩
  · rw [htaken]
    simp [ofList, position, List.extract_eq_take_drop]
  · obtain ⟨hrun, hcur, -⟩ := nextIfKinds_of_matches s h
    exact ⟨hrun, h.2, hcur⟩
  · rw [nextIfKinds_of_not_matches s h]
    exact ⟨rfl, rfl⟩

/-- After `int` is taken from `int main`, a peek `2 ^ 64 - 1` places ahead, far past the end,
    wraps around to `int`, the token already taken. -/
theorem peekNth_wraps_onto_taken :
    let ts := layout "<builder>" [(.dataType, "int"), (.identifier, "main")]
    let r := (ofList ts).run [.next, .peekNth 18446744073709551615]
    r.2.length ≤ r.2.position + 18446744073709551615 ∧ ts.head?.isSome ∧
      r.1.map Prod.snd = [.token ts.head?, .token ts.head?] := by
  decide

end TokenStream

end COutline
