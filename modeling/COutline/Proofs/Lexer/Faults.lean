import COutline.Proofs.Lexer.Relexing
import COutline.Proofs.Source.Positions

/-!
# How a lexing pass fails

A pass stops at the first place where the lexeme at the head of the unread text is refused, or
where the token it takes is the counted token past the limit.  `Reaches` is the part of a pass
before such a place: a derivation like `Trace` that stops where a given rest of the text is
left unread, each step taken on the whole unread text.

The characters a pass reads before it stops are read alone to the same tokens
(`Reaches.exists_trace`): a lexeme looks past its end only to see that it ends there, and the
end of the text lets every lexeme end.  A failing run is a derivation up to the place where it
stops, followed by a refused lexeme or a token over the limit (`run_error`), and conversely a
derivation within the limit is run step by step (`run_reaches`).

The refused lexemes are said without the dispatch (`Offending`): a block comment or a string
literal that the text ends inside, and a complete comment, string literal or identifier over
its byte limit.  A pass fails with a fault exactly when it comes to an offending lexeme, the
first one, and the characters before it lex on their own (`tokenize_first_offending`).  It
fails on the token limit exactly when the counted token past the limit is taken before any
fault (`tokenize_token_limit`).
-/

namespace COutline

namespace Lexeme

/-! ## Where the classes of lexemes that can be refused start -/

variable {cs : List Char} {n : Nat}

/-- A block comment the text ends inside opens the rest of the text, all of it. -/
theorem blockComment_unterminated (h : blockComment cs = .unterminated n) :
    (∃ y, cs = '/' :: '*' :: y) ∧ n = cs.length := by
  unfold blockComment at h
  split at h
  · split at h
    · cases h
    · cases h
      exact ⟨⟨_, rfl⟩, by simp⟩
  · cases h

/-- A string literal the text ends inside opens the rest of the text, all of it. -/
theorem stringLiteral_unterminated (h : stringLiteral cs = .unterminated n) :
    (∃ x, cs = '"' :: x) ∧ n = cs.length := by
  unfold stringLiteral at h
  split at h
  · split at h
    · cases h
    · cases h
      exact ⟨⟨_, rfl⟩, by simp⟩
  · cases h

theorem lineComment_matched (h : lineComment cs = .matched n) : ∃ y, cs = '/' :: '/' :: y := by
  unfold lineComment at h
  split at h
  · exact ⟨_, rfl⟩
  · cases h

theorem blockComment_matched (h : blockComment cs = .matched n) : ∃ y, cs = '/' :: '*' :: y := by
  unfold blockComment at h
  split at h
  · exact ⟨_, rfl⟩
  · cases h

theorem stringLiteral_matched (h : stringLiteral cs = .matched n) : ∃ x, cs = '"' :: x := by
  unfold stringLiteral at h
  split at h
  · exact ⟨_, rfl⟩
  · cases h

end Lexeme

/-- The byte count a fault reports for the lexeme it refuses, for the three faults that carry
    one. -/
def LexError.reportedLength : LexError → Option Nat
  | .identifierTooLong n _ _ | .stringTooLarge n _ _ | .commentTooLong n _ _ => some n
  | _ => none

/-- The span over the characters `l` read after `a` from the start of a text that fits the
    offset counter starts at the byte size of `a` and is as long as `l` in bytes. -/
theorem Span.covering_start_length? {a l : List Char}
    (hfit : Utf8.size (a ++ l) < Position.offsetRange) :
    (Span.covering (Position.start.advanceList a) l).start.offset = Utf8.size a ∧
      (Span.covering (Position.start.advanceList a) l).length? = some (Utf8.size l) := by
  rw [Utf8.size_append] at hfit
  have hstart : (Position.start.advanceList a).offset = Utf8.size a :=
    Position.start_advanceList_offset a (by omega)
  have hstop :
      ((Position.start.advanceList a).advanceList l).offset = Utf8.size a + Utf8.size l := by
    rw [← Position.advanceList_append, Position.start_advanceList_offset _ (by
      rw [Utf8.size_append]; exact hfit), Utf8.size_append]
  refine ⟨hstart, ?_⟩
  simp only [Span.length?, Span.covering, hstart, hstop]
  rw [if_pos (by omega)]
  congr 1
  omega

/-- The reserved word the table finds at the head is the whole run of identifier characters
    there. -/
theorem ReservedWord.atHead?_eq_some {c : Char} {cs : List Char} {w : ReservedWord}
    (h : ReservedWord.atHead? (c :: cs) = some w) :
    w ∈ ReservedWord.all ∧ w.word.toList = (c :: cs).takeWhile Lexeme.isIdentifierContinue := by
  have hfound : (ReservedWord.startingWith c).find? (·.heads (c :: cs)) = some w := h
  have hall : w ∈ ReservedWord.all :=
    ReservedWord.mem_all_of_mem_startingWith c w (List.mem_of_find?_eq_some hfound)
  have hheads := List.find?_some hfound
  exact ⟨hall, (ReservedWord.heads_iff hall (c :: cs)).1 hheads⟩

namespace Lexer

/-! ## Derivations that stop before the end -/

/-- Reading `cs` from `p` in `file` comes to the place where `rest` is left unread, taking the
    tokens `ts` on the way. -/
inductive Reaches (file : String) : Position → List Char → List Char → List Token → Prop
  | here (p : Position) (cs : List Char) : Reaches file p cs cs []
  | skip {p : Position} {c : Char} {cs rest : List Char} {ts : List Token} :
      step (c :: cs) = .skip → Reaches file (p.advance c) cs rest ts →
      Reaches file p (c :: cs) rest ts
  | token {p : Position} {c : Char} {cs rest : List Char} {ts : List Token} {kind : TokenKind}
      {n : Nat} (h : 0 < n) :
      step (c :: cs) = .token kind n h →
      Reaches file (p.advanceList ((c :: cs).take n)) ((c :: cs).drop n) rest ts →
      Reaches file p (c :: cs) rest
        (Token.make kind (String.ofList ((c :: cs).take n)) file
          (Span.covering p ((c :: cs).take n)) :: ts)

variable {pr : LexicalPreferences} {file : String}

/-- A derivation of the whole text comes to its end. -/
theorem Trace.reaches {p : Position} {cs : List Char} {ts : List Token} (h : Trace file p cs ts) :
    Reaches file p cs [] ts := by
  induction h with
  | done p => exact .here p []
  | skip hstep _ ih => exact .skip hstep ih
  | token hn hstep _ ih => exact .token hn hstep ih

/-- The characters read before the place a derivation comes to are read alone to the same
    tokens: each lexeme ends where it ended, since the end of the text lets every lexeme end. -/
theorem Reaches.exists_trace {p : Position} {cs rest : List Char} {ts : List Token}
    (h : Reaches file p cs rest ts) : ∃ a, cs = a ++ rest ∧ Trace file p a ts := by
  induction h with
  | here p cs => exact ⟨[], rfl, .done p⟩
  | @skip p c cs rest ts hstep _ ih =>
    obtain ⟨a, rfl, htrace⟩ := ih
    exact ⟨c :: a, rfl,
      .skip ((step_eq_skip_iff c a).2 ((step_eq_skip_iff c _).1 hstep)) htrace⟩
  | @token p c cs rest ts kind n hn hstep _ ih =>
    obtain ⟨a, hdrop, htrace⟩ := ih
    -- the character after the lexeme, if `a` has one, is the one that followed it
    have hnext : ∀ d ∈ a.head?, NextKeeps (c :: cs) kind n d := fun d hd =>
      Or.inr (Or.inr (by rw [hdrop, List.head?_append, hd]; rfl))
    obtain ⟨hle, hstep'⟩ := step_take_append hstep hnext
    have hlen : ((c :: cs).take n).length = n := List.length_take_of_le hle
    have hlexeme :
        ∀ m (hm : 0 < m), m = n → step ((c :: cs).take n ++ a) = .token kind m hm := by
      rintro m hm rfl
      exact hstep'
    refine ⟨(c :: cs).take n ++ a, ?_, ?_⟩
    · rw [List.append_assoc, ← hdrop, List.take_append_drop]
    · exact Trace.cons_text ⟨by omega, hlexeme _ _ hlen⟩ htrace

section Steps

variable {s : Scanner} {c : Char} {cs : List Char} {kind : TokenKind} {n : Nat} {hn : 0 < n}

/-- The token a run takes at the head of `c :: cs`, as the dispatch reads `n` characters of
    kind `kind` there. -/
def tokenAt (file : String) (p : Position) (cs : List Char) (kind : TokenKind) (n : Nat) : Token :=
  Token.make kind (String.ofList (cs.take n)) file (Span.covering p (cs.take n))

/-- A token step within the limit: the run takes the token, counts it when it counts, and goes
    on after its lexeme. -/
theorem run_token (hstep : step (c :: cs) = .token kind n hn)
    (hfit : countsTowardsLimit pr (tokenAt file s.pos (c :: cs) kind n) = true →
      s.counted + 1 ≤ Limits.standard.maxTokenCount) :
    run pr file (c :: cs) s = run pr file ((c :: cs).drop n)
      ⟨(Span.covering s.pos ((c :: cs).take n)).stop,
        s.tokens.push (tokenAt file s.pos (c :: cs) kind n),
        s.counted + (if countsTowardsLimit pr (tokenAt file s.pos (c :: cs) kind n) then 1 else 0),
        s.metrics.record pr (tokenAt file s.pos (c :: cs) kind n)⟩ := by
  unfold tokenAt at hfit ⊢
  rw [run, hstep]
  dsimp only
  rw [countsTowardsLimit_eq]
  generalize Token.make kind (String.ofList ((c :: cs).take n)) file
    (Span.covering s.pos ((c :: cs).take n)) = tok at hfit ⊢
  cases hc : countsTowardsLimit pr tok with
  | true =>
    have hle := hfit hc
    rw [if_pos rfl, if_neg (by simp; omega)]
    rfl
  | false =>
    rw [if_neg (by simp), if_neg (by simp)]
    rfl

/-- A token step past the limit: the counted token past the limit stops the run over its
    span. -/
theorem run_token_over (hstep : step (c :: cs) = .token kind n hn)
    (hcount : countsTowardsLimit pr (tokenAt file s.pos (c :: cs) kind n) = true)
    (hover : Limits.standard.maxTokenCount < s.counted + 1) :
    run pr file (c :: cs) s =
      .error (.tooManyTokens (s.counted + 1) (Span.covering s.pos ((c :: cs).take n))) := by
  unfold tokenAt at hcount
  rw [run, hstep]
  dsimp only
  rw [countsTowardsLimit_eq, hcount, if_pos rfl, if_pos (by simp; omega)]

/-- A fault at the head stops the run over the characters it covers. -/
theorem run_fault {f : Fault} (hstep : step (c :: cs) = .fault f n) :
    run pr file (c :: cs) s = .error (place f file s.pos ((c :: cs).take n)) := by
  rw [run, hstep]

end Steps

/-- A derivation within the token limit is run step by step: the run comes to the same place,
    with the tokens of the derivation added and counted. -/
theorem run_reaches {p : Position} {cs rest : List Char} {ts : List Token}
    (h : Reaches file p cs rest ts) :
    ∀ s : Scanner, s.pos = p →
      s.counted + ts.countP (countsTowardsLimit pr) ≤ Limits.standard.maxTokenCount →
      ∃ a s', cs = a ++ rest ∧ run pr file cs s = run pr file rest s' ∧
        s'.pos = p.advanceList a ∧
        s'.tokens.toList = s.tokens.toList ++ ts ∧
        s'.counted = s.counted + ts.countP (countsTowardsLimit pr) := by
  induction h with
  | here p cs =>
    intro s hpos _
    exact ⟨[], s, rfl, rfl, hpos, by simp, by simp⟩
  | @skip p c cs rest ts hstep _ ih =>
    intro s hpos hbudget
    obtain ⟨a, s', rfl, hrun, hposs, htoks, hcount⟩ :=
      ih { s with pos := s.pos.advance c, metrics := s.metrics.skip pr } (by rw [hpos]) hbudget
    refine ⟨c :: a, s', rfl, ?_, hposs, htoks, hcount⟩
    rw [run, hstep]
    exact hrun
  | @token p c cs rest ts kind n hn hstep _ ih =>
    intro s hpos hbudget
    subst hpos
    rw [List.countP_cons] at hbudget
    obtain ⟨tok, htok⟩ : ∃ tok, Token.make kind (String.ofList ((c :: cs).take n)) file
        (Span.covering s.pos ((c :: cs).take n)) = tok := ⟨_, rfl⟩
    have htokAt : tokenAt file s.pos (c :: cs) kind n = tok := htok
    rw [htok] at hbudget ⊢
    -- the token fits the limit, so the run takes it and goes on after its lexeme
    obtain ⟨a, s', hdrop, hrun, hposs, htoks, hcount⟩ := ih
      ⟨(Span.covering s.pos ((c :: cs).take n)).stop, s.tokens.push tok,
        s.counted + (if countsTowardsLimit pr tok then 1 else 0), s.metrics.record pr tok⟩ rfl
      (by dsimp only; omega)
    refine ⟨(c :: cs).take n ++ a, s', ?_, ?_, ?_, by simp [htoks], ?_⟩
    · rw [List.append_assoc, ← hdrop, List.take_append_drop]
    · rw [run_token hstep (fun hc => by rw [htokAt] at hc; rw [if_pos hc] at hbudget; omega),
        htokAt]
      exact hrun
    · rw [hposs, Position.advanceList_append]
    · rw [hcount, List.countP_cons]
      dsimp only
      omega

/-- A failing run from a state within the limit comes, by a derivation within the limit, to a
    place where it stops: at a lexeme the dispatch refuses, or at the counted token past the
    limit. -/
theorem run_error {cs : List Char} {s : Scanner} {e : LexError} (h : run pr file cs s = .error e)
    (hs : s.counted ≤ Limits.standard.maxTokenCount) :
    ∃ a rest ts, cs = a ++ rest ∧ Reaches file s.pos cs rest ts ∧
      s.counted + ts.countP (countsTowardsLimit pr) ≤ Limits.standard.maxTokenCount ∧
      ((∃ f n, step rest = .fault f n ∧
          e = place f file (s.pos.advanceList a) (rest.take n)) ∨
        (∃ kind n hn, step rest = .token kind n hn ∧
          countsTowardsLimit pr (tokenAt file (s.pos.advanceList a) rest kind n) = true ∧
          s.counted + ts.countP (countsTowardsLimit pr) = Limits.standard.maxTokenCount ∧
          e = .tooManyTokens (Limits.standard.maxTokenCount + 1)
            (Span.covering (s.pos.advanceList a) (rest.take n)))) := by
  fun_induction run pr file cs s with
  | case1 s => cases h
  | case2 s c rest hstep ih =>
    obtain ⟨a, rest', ts, rfl, hreach, hbudget, hstop⟩ := ih h hs
    exact ⟨c :: a, rest', ts, rfl, .skip hstep hreach, hbudget, hstop⟩
  | case3 s c rest kind n hn hstep lexeme span tok counts counted hover =>
    cases h
    -- the token counts and is the one past the limit
    have hc : counts = true := by simp only [Bool.and_eq_true] at hover; exact hover.1
    have hcounted : counted = s.counted + 1 := if_pos hc
    have hover' : Limits.standard.maxTokenCount < counted := by
      simp only [Bool.and_eq_true, decide_eq_true_eq] at hover
      exact hover.2
    refine ⟨[], c :: rest, [], rfl, .here _ _, by simpa using hs,
      .inr ⟨kind, n, hn, hstep, hc, by simp; omega, ?_⟩⟩
    rw [hcounted, show s.counted = Limits.standard.maxTokenCount by omega]
    rfl
  | case4 s c rest kind n hn hstep lexeme span tok counts counted hover ih =>
    -- the token passed the limit check, so the count it leaves is within the limit
    have hcounted : counted ≤ Limits.standard.maxTokenCount := by
      by_cases hc : counts = true
      · have hle : ¬ counted > Limits.standard.maxTokenCount := by simpa [hc] using hover
        omega
      · have heq : counted = s.counted := dif_neg hc
        omega
    obtain ⟨a, rest', ts, hdrop, hreach, hbudget, hstop⟩ := ih h hcounted
    have hcount : counted = s.counted + (if countsTowardsLimit pr tok then 1 else 0) := by
      have hct : countsTowardsLimit pr tok = counts := rfl
      rw [hct]
      by_cases hc : counts = true
      · rw [if_pos hc]
        exact dif_pos hc
      · rw [if_neg hc, Nat.add_zero]
        exact dif_neg hc
    refine ⟨lexeme ++ a, rest', tok :: ts, ?_, .token hn hstep hreach, ?_, ?_⟩
    · rw [List.append_assoc, ← hdrop, List.take_append_drop]
    · dsimp only at hbudget
      rw [List.countP_cons]
      omega
    · have hpos : span.stop.advanceList a = s.pos.advanceList (lexeme ++ a) := by
        rw [Position.advanceList_append]
        rfl
      dsimp only at hstop
      rw [hpos] at hstop
      rw [List.countP_cons]
      rcases hstop with hfault | ⟨kind', n', hn', hstep', hcounts, hfull, he⟩
      · exact .inl hfault
      · exact .inr ⟨kind', n', hn', hstep', hcounts, by omega, he⟩
  | case5 s c rest f n hstep =>
    cases h
    exact ⟨[], c :: rest, [], rfl, .here _ _, by simpa using hs, .inl ⟨f, n, hstep, rfl⟩⟩

/-! ## The lexemes a pass refuses -/

/-- The lexeme `lexeme` at the head of `cs` is refused with the fault `f`: a block comment or a
    string literal that the text ends inside (the lexeme is then the whole rest of the text),
    or a complete comment, string literal (quotes included) or identifier, no reserved word,
    that is longer than its byte limit. -/
inductive Offending : List Char → Fault → List Char → Prop
  | unclosedComment {cs : List Char} {n : Nat} :
      Lexeme.blockComment cs = .unterminated n → Offending cs .unterminatedComment cs
  | unclosedString {cs : List Char} {n : Nat} :
      Lexeme.stringLiteral cs = .unterminated n → Offending cs .unterminatedString cs
  | longComment {cs : List Char} {n : Nat} :
      Lexeme.lineComment cs = .matched n ∨ Lexeme.blockComment cs = .matched n →
      Limits.standard.maxCommentLength < Utf8.size (cs.take n) →
      Offending cs .commentTooLong (cs.take n)
  | largeString {cs : List Char} {n : Nat} :
      Lexeme.stringLiteral cs = .matched n →
      Limits.standard.maxStringSize < Utf8.size (cs.take n) →
      Offending cs .stringTooLarge (cs.take n)
  | longIdentifier {c : Char} {cs : List Char} :
      c.isAlpha = true →
      (∀ w ∈ ReservedWord.all, w.word.toList ≠ (c :: cs).takeWhile Lexeme.isIdentifierContinue) →
      Limits.standard.maxIdentifierLength <
        Utf8.size ((c :: cs).takeWhile Lexeme.isIdentifierContinue) →
      Offending (c :: cs) .identifierTooLong ((c :: cs).takeWhile Lexeme.isIdentifierContinue)

section Refusals

variable {c : Char} {cs : List Char} {f : Fault} {n : Nat}

theorem step_quote : step ('"' :: cs) = string ('"' :: cs) := by
  rw [step, if_neg (by decide), if_neg (by decide), if_neg (by decide), if_neg (by decide),
    if_neg (by decide), if_neg (by decide), if_neg (by decide), if_neg (by decide),
    if_neg (by decide), if_pos rfl]

theorem constant_ne_fault : constant cs ≠ .fault f n := by
  unfold constant
  split <;> simp

/-- Only the rules for a slash, a double quote and a letter refuse a lexeme. -/
theorem step_eq_fault (h : step (c :: cs) = .fault f n) :
    (c = '/' ∧ slash (c :: cs) = .fault f n) ∨ (c = '"' ∧ string (c :: cs) = .fault f n) ∨
      (c.isAlpha = true ∧ word (c :: cs) = .fault f n) := by
  by_cases h₁ : c = '/'
  · subst h₁
    rw [step_slash] at h
    exact .inl ⟨rfl, h⟩
  by_cases hq : c = '"'
  · subst hq
    rw [step_quote] at h
    exact .inr (.inl ⟨rfl, h⟩)
  by_cases hα : c.isAlpha = true
  · rw [step_of_isAlpha hα] at h
    exact .inr (.inr ⟨hα, h⟩)
  -- every other rule takes a token or skips
  exfalso
  rw [step, if_neg h₁] at h
  by_cases h₂ : c = '{'
  · rw [if_pos h₂] at h; cases h
  rw [if_neg h₂] at h
  by_cases h₃ : c = '}'
  · rw [if_pos h₃] at h; cases h
  rw [if_neg h₃] at h
  by_cases h₄ : c = '('
  · rw [if_pos h₄] at h; cases h
  rw [if_neg h₄] at h
  by_cases h₅ : c = ')'
  · rw [if_pos h₅] at h; cases h
  rw [if_neg h₅] at h
  by_cases h₆ : c = '[' ∨ c = ']' ∨ c = ';'
  · rw [if_pos h₆] at h; cases h
  rw [if_neg h₆] at h
  by_cases h₇ : c = '*'
  · rw [if_pos h₇] at h; cases h
  rw [if_neg h₇] at h
  by_cases h₈ : opensOperatorPair c = true
  · rw [if_pos h₈] at h; cases h
  rw [if_neg h₈] at h
  by_cases h₉ : c.isDigit = true
  · rw [if_pos h₉] at h; exact constant_ne_fault h
  rw [if_neg h₉, if_neg hq, if_neg (by simpa [Lexeme.isIdentifierStart] using hα)] at h
  cases h

theorem slash_offending (h : slash cs = .fault f n) : Offending cs f (cs.take n) := by
  unfold slash at h
  split at h
  · next m hm =>
    unfold comment at h
    split at h
    · next hsize =>
      cases h
      exact .longComment (.inl hm) hsize
    · cases h
  · split at h
    · next m hm =>
      unfold comment at h
      split at h
      · next hsize =>
        cases h
        exact .longComment (.inr hm) hsize
      · cases h
    · next m hm =>
      cases h
      rw [(Lexeme.blockComment_unterminated hm).2, List.take_length]
      exact .unclosedComment hm
    · cases h

theorem string_offending (h : string cs = .fault f n) : Offending cs f (cs.take n) := by
  unfold string at h
  split at h
  · next m hm =>
    split at h
    · next hsize =>
      cases h
      exact .largeString hm hsize
    · cases h
  · next m hm =>
    cases h
    rw [(Lexeme.stringLiteral_unterminated hm).2, List.take_length]
    exact .unclosedString hm
  · cases h

theorem word_offending (hα : c.isAlpha = true) (h : word (c :: cs) = .fault f n) :
    Offending (c :: cs) f ((c :: cs).take n) := by
  have hrun : Lexeme.identifier (c :: cs) =
      .matched ((c :: cs).takeWhile Lexeme.isIdentifierContinue).length :=
    ofRun_takeWhile (isIdentifierContinue_of_isAlpha hα)
  unfold word at h
  split at h
  · cases h
  · next hnone =>
    split at h
    · next m hm =>
      rw [hrun] at hm
      cases hm
      unfold identifier at h
      split at h
      · next hsize =>
        cases h
        rw [take_length_takeWhile] at hsize ⊢
        exact .longIdentifier hα (not_reserved_of_atHead?_eq_none hα hnone) hsize
      · cases h
    · next hne => exact absurd hrun (hne _)

/-- Every fault of the dispatch refuses an offending lexeme, the characters it covers. -/
theorem step_offending {cs : List Char} (h : step cs = .fault f n) :
    Offending cs f (cs.take n) := by
  cases cs with
  | nil => cases h
  | cons c cs =>
    rcases step_eq_fault h with ⟨-, h⟩ | ⟨-, h⟩ | ⟨hα, h⟩
    · exact slash_offending h
    · exact string_offending h
    · exact word_offending hα h

/-- Every offending lexeme is refused by the dispatch, over exactly its characters. -/
theorem Offending.step_eq {cs l : List Char} (h : Offending cs f l) :
    ∃ n, step cs = .fault f n ∧ cs.take n = l := by
  cases h with
  | @unclosedComment cs m hm =>
    obtain ⟨⟨y, rfl⟩, hlen⟩ := Lexeme.blockComment_unterminated hm
    refine ⟨m, ?_, by rw [hlen, List.take_length]⟩
    rw [step_slash]
    unfold slash
    split
    · next m' hm' => rw [lineComment_eq_noMatch (by simp)] at hm'; cases hm'
    · split
      · next m' hm' => rw [hm] at hm'; cases hm'
      · next m' hm' => rw [hm] at hm'; cases hm'; rfl
      · next hm' => rw [hm] at hm'; cases hm'
  | @unclosedString cs m hm =>
    obtain ⟨⟨x, rfl⟩, hlen⟩ := Lexeme.stringLiteral_unterminated hm
    refine ⟨m, ?_, by rw [hlen, List.take_length]⟩
    rw [step_quote]
    unfold string
    split
    · next m' hm' => rw [hm] at hm'; cases hm'
    · next m' hm' => rw [hm] at hm'; cases hm'; rfl
    · next hm' => rw [hm] at hm'; cases hm'
  | @longComment cs m hm hsize =>
    refine ⟨m, ?_, rfl⟩
    rcases hm with hline | hblock
    · obtain ⟨y, rfl⟩ := Lexeme.lineComment_matched hline
      rw [step_slash]
      unfold slash
      split
      · next m' hm' =>
        rw [hline] at hm'
        cases hm'
        rw [comment, if_pos hsize]
      · next hne => exact absurd hline (hne _)
    · obtain ⟨y, rfl⟩ := Lexeme.blockComment_matched hblock
      rw [step_slash]
      unfold slash
      split
      · next m' hm' => rw [lineComment_eq_noMatch (by simp)] at hm'; cases hm'
      · split
        · next m' hm' =>
          rw [hblock] at hm'
          cases hm'
          rw [comment, if_pos hsize]
        · next m' hm' => rw [hblock] at hm'; cases hm'
        · next hm' => rw [hblock] at hm'; cases hm'
  | @largeString cs m hm hsize =>
    obtain ⟨x, rfl⟩ := Lexeme.stringLiteral_matched hm
    refine ⟨m, ?_, rfl⟩
    rw [step_quote]
    unfold string
    split
    · next m' hm' =>
      rw [hm] at hm'
      cases hm'
      rw [if_pos hsize]
    · next m' hm' => rw [hm] at hm'; cases hm'
    · next hm' => rw [hm] at hm'; cases hm'
  | @longIdentifier c cs hα hnot hsize =>
    have hrun : Lexeme.identifier (c :: cs) =
        .matched ((c :: cs).takeWhile Lexeme.isIdentifierContinue).length :=
      ofRun_takeWhile (isIdentifierContinue_of_isAlpha hα)
    refine ⟨((c :: cs).takeWhile Lexeme.isIdentifierContinue).length, ?_,
      take_length_takeWhile _ _⟩
    rw [step_of_isAlpha hα]
    unfold word
    split
    · -- a reserved word found at the head would be the whole run
      next w hw =>
      obtain ⟨hall, hword⟩ := ReservedWord.atHead?_eq_some hw
      exact absurd hword (hnot w hall)
    · split
      · next m hm =>
        rw [hrun] at hm
        cases hm
        rw [identifier, if_pos (by rw [take_length_takeWhile]; exact hsize)]
      · next hne => exact absurd hrun (hne _)

/-- The dispatch refuses the head of a text exactly when an offending lexeme stands there. -/
theorem step_fault_iff {cs l : List Char} :
    (∃ n, step cs = .fault f n ∧ cs.take n = l) ↔ Offending cs f l := by
  constructor
  · rintro ⟨n, h, rfl⟩
    exact step_offending h
  · exact Offending.step_eq

end Refusals

/-! ## What the preferences change -/

/-- A token made by the lexer counts towards the limit unless it is a comment that the
    preferences do not count. -/
theorem countsTowardsLimit_make (kind : TokenKind) (text : String) (span : Span) :
    countsTowardsLimit pr (Token.make kind text file span) = true ↔
      kind ≠ .comment ∨ pr.countCommentsTowardsLimit = true := by
  simp [countsTowardsLimit, Token.make, Token.isComment, or_iff_not_imp_left]

/-- Which tokens count depends on the preferences only through whether comments count. -/
theorem countsTowardsLimit_congr {pr' : LexicalPreferences}
    (h : pr'.countCommentsTowardsLimit = pr.countCommentsTowardsLimit) :
    countsTowardsLimit pr' = countsTowardsLimit pr := by
  funext t
  simp [countsTowardsLimit, h]

/-- A text has one derivation: the dispatch decides every step. -/
theorem Trace.unique {p : Position} {cs : List Char} {ts ts' : List Token}
    (h : Trace file p cs ts) (h' : Trace file p cs ts') : ts = ts' := by
  induction h generalizing ts' with
  | done p =>
    cases h'
    rfl
  | @skip p c cs ts hstep _ ih =>
    cases h' with
    | skip _ htrace => exact ih htrace
    | token hn hstep' _ => rw [hstep] at hstep'; cases hstep'
  | @token p c cs ts kind n hn hstep _ ih =>
    cases h' with
    | skip hstep' _ => rw [hstep] at hstep'; cases hstep'
    | token hn' hstep' htrace =>
      rw [hstep] at hstep'
      cases hstep'
      rw [ih htrace]

/-- Two runs under preferences that count the same tokens, from states at the same place with
    the same tokens and count, end alike: with the same tokens or the same error.  The metrics,
    which the other preferences shape, never steer a run. -/
theorem run_tokens_congr {pr' : LexicalPreferences}
    (hcount : countsTowardsLimit pr' = countsTowardsLimit pr) (cs : List Char) (s s' : Scanner)
    (hpos : s'.pos = s.pos) (htoks : s'.tokens = s.tokens) (hcounted : s'.counted = s.counted) :
    (run pr' file cs s').map Scanner.tokens = (run pr file cs s).map Scanner.tokens := by
  fun_induction run pr file cs s generalizing s' with
  | case1 s =>
    rw [run]
    simp [Except.map, htoks]
  | case2 s c rest hstep ih =>
    rw [run, hstep]
    exact ih _ (by rw [hpos]) htoks hcounted
  | case3 s c rest kind n hn hstep lexeme span tok counts counted hover =>
    -- the token counts under both preferences and is the one past the limit
    have hc : countsTowardsLimit pr tok = true := by
      simp only [Bool.and_eq_true] at hover
      exact hover.1
    have hcounted' : counted = s.counted + 1 := dif_pos hc
    have hover' : Limits.standard.maxTokenCount < counted := by
      simp only [Bool.and_eq_true, decide_eq_true_eq] at hover
      exact hover.2
    have hc' : countsTowardsLimit pr' (tokenAt file s'.pos (c :: rest) kind n) = true := by
      rw [hcount, hpos]
      exact hc
    rw [run_token_over hstep hc' (by omega), hcounted, hpos, ← hcounted']
  | case4 s c rest kind n hn hstep lexeme span tok counts counted hover ih =>
    -- the token fits the limit under both preferences
    simp only [Bool.and_eq_true, decide_eq_true_eq, not_and] at hover
    have hcounted' : counted = s.counted + (if countsTowardsLimit pr tok then 1 else 0) := by
      by_cases hc : countsTowardsLimit pr tok = true
      · rw [if_pos hc]
        exact dif_pos hc
      · rw [if_neg hc, Nat.add_zero]
        exact dif_neg hc
    have htok : tokenAt file s'.pos (c :: rest) kind n = tok := by rw [hpos]; rfl
    rw [run_token hstep fun hc => by
      rw [htok, hcount] at hc
      have hle := hover hc
      have hcounted'' : counted = s.counted + 1 := dif_pos hc
      omega]
    exact ih _ (by rw [hpos]) (by rw [htoks, htok]) (by rw [htok, hcount, hcounted, hcounted'])
  | case5 s c rest f n hstep =>
    rw [run, hstep, hpos]

/-- The tokens or the error a pass returns are those of its run from the start of the text. -/
theorem tokenize_map_tokens (pr : LexicalPreferences) (source file : String) :
    (tokenize pr source file).map Lexed.tokens =
      ((run pr file source.toList ⟨Position.start, #[], 0, {}⟩).map Scanner.tokens).map
        Array.toList := by
  unfold tokenize
  cases run pr file source.toList ⟨Position.start, #[], 0, {}⟩ <;> rfl

/-! ## The first fault -/

/-- A fault placed over a lexeme is no token-limit failure, and the size it reports is the
    lexeme's. -/
theorem place_ne_tooManyTokens (f : Fault) (pos : Position) (l : List Char) (count : Nat)
    (span : Span) : place f file pos l ≠ .tooManyTokens count span := by
  cases f <;> simp [place]

theorem place_reportedLength (f : Fault) (pos : Position) (l : List Char) :
    ∀ m, (place f file pos l).reportedLength = some m → m = Utf8.size l := by
  intro m hm
  cases f <;> simp [place, LexError.reportedLength] at hm <;> omega

end Lexer

/-- A lexing pass fails with an error other than the token limit exactly when its scan, left to
    right, comes to an offending lexeme, and it reports the first one.  The scan reaches the
    place `p` where the lexeme starts, the byte offset the error's span starts at, having read
    exactly the text before `p`, and that text lexes on its own to the tokens the scan took
    before `p`.  The fault is determined by the text from `p` on: a block comment or a string
    literal that the text ends inside, reported over the rest of the text, or a complete
    comment, string literal or identifier over its byte limit, reported over that lexeme with
    its byte length, which is the length of the span.  A lexeme of exactly its limit is no
    offending lexeme. -/
theorem tokenize_first_offending {pr : LexicalPreferences} {source file : String}
    (hfit : Utf8.size source.toList < Position.offsetRange) (e : LexError) :
    (tokenize pr source file = .error e ∧ ∀ count span, e ≠ .tooManyTokens count span) ↔
      ∃ a rest ts f lexeme, source.toList = a ++ rest ∧
        Lexer.Reaches file Position.start source.toList rest ts ∧
        (∃ r, tokenize pr (String.ofList a) file = .ok r ∧ r.tokens = ts) ∧
        Lexer.Offending rest f lexeme ∧
        e = Lexer.place f file (Position.start.advanceList a) lexeme ∧
        e.span.start.offset = Utf8.size a ∧ e.span.length? = some (Utf8.size lexeme) ∧
        ∀ m, e.reportedLength = some m → m = Utf8.size lexeme := by
  -- the span facts hold of every fault placed over a lexeme the text starts with after `a`
  have hspan : ∀ a rest f n, source.toList = a ++ rest →
      (Lexer.place f file (Position.start.advanceList a) (rest.take n)).span.start.offset =
        Utf8.size a ∧
      (Lexer.place f file (Position.start.advanceList a) (rest.take n)).span.length? =
        some (Utf8.size (rest.take n)) := by
    intro a rest f n hsplit
    rw [Lexer.place_span]
    apply Span.covering_start_length?
    have hle : Utf8.size (a ++ rest.take n) ≤ Utf8.size source.toList := by
      rw [hsplit, Utf8.size_append, Utf8.size_append]
      have := Utf8.size_append (rest.take n) (rest.drop n)
      rw [List.take_append_drop] at this
      omega
    omega
  constructor
  · rintro ⟨h, hne⟩
    obtain ⟨a, rest, ts, hsplit, hreach, hbudget, hstop⟩ :=
      Lexer.run_error (Lexer.tokenize_error_run h) (Nat.zero_le _)
    rcases hstop with ⟨f, n, hstep, rfl⟩ | ⟨kind, n, hn, -, -, -, rfl⟩
    · -- the characters before the offending lexeme are read alone to the same tokens
      obtain ⟨a', hsplit', htrace⟩ := hreach.exists_trace
      have ha : a' = a := List.append_cancel_right (hsplit'.symm.trans hsplit)
      subst ha
      obtain ⟨hoff, hlen⟩ := hspan a' rest f n hsplit
      refine ⟨a', rest, ts, f, rest.take n, hsplit, hreach, ?_, Lexer.step_offending hstep, rfl,
        hoff, hlen, Lexer.place_reportedLength f _ _⟩
      exact tokenize_ok_iff.2
        ⟨by rw [String.toList_ofList]; exact htrace, by simpa using hbudget⟩
    · exact absurd rfl (hne _ _)
  · rintro ⟨a, rest, ts, f, lexeme, hsplit, hreach, ⟨r, hr, hts⟩, hoff, rfl, -, -, -⟩
    refine ⟨?_, Lexer.place_ne_tooManyTokens f _ lexeme⟩
    obtain ⟨-, hbudget⟩ := tokenize_ok_iff.1 ⟨r, hr, hts⟩
    obtain ⟨n, hstep, rfl⟩ := hoff.step_eq
    -- the scan runs through the text before the lexeme and stops at its fault
    obtain ⟨a', s', hsplit', hrun, hpos, -, -⟩ :=
      @Lexer.run_reaches pr file _ _ _ _ hreach ⟨Position.start, #[], 0, {}⟩ rfl
        (by simpa using hbudget)
    have ha : a' = a := List.append_cancel_right (hsplit'.symm.trans hsplit)
    subst ha
    cases rest with
    | nil => cases hstep
    | cons c rest =>
      unfold tokenize
      rw [hrun, Lexer.run_fault hstep, hpos]

/-- A block comment left open after a declaration: the text fits the offset counter. -/
theorem tokenize_first_offending_open_comment :
    let e := LexError.unterminatedComment ⟨"f.c", 1, 8⟩ ⟨⟨7, 1, 8⟩, ⟨14, 1, 15⟩⟩
    Utf8.size "int x; /* open".toList < Position.offsetRange ∧
    ((tokenize {} "int x; /* open" "f.c" = .error e ∧ ∀ count span, e ≠ .tooManyTokens count span) ↔
      ∃ a rest ts f lexeme, "int x; /* open".toList = a ++ rest ∧
        Lexer.Reaches "f.c" Position.start "int x; /* open".toList rest ts ∧
        (∃ r, tokenize {} (String.ofList a) "f.c" = .ok r ∧ r.tokens = ts) ∧
        Lexer.Offending rest f lexeme ∧
        e = Lexer.place f "f.c" (Position.start.advanceList a) lexeme ∧
        e.span.start.offset = Utf8.size a ∧ e.span.length? = some (Utf8.size lexeme) ∧
        ∀ m, e.reportedLength = some m → m = Utf8.size lexeme) :=
  ⟨by decide, tokenize_first_offending (by decide) _⟩

/-- A lexing pass fails on the token limit exactly when, before any fault, it takes the counted
    token past the limit: the tokens taken before it count exactly `Limits.standard.maxTokenCount`,
    the next one counts (it is no comment, or comments count), and the error carries its number
    and its span; so a text with exactly that many counted tokens still lexes.  Only whether
    comments count bears on the outcome: the other preferences never change the tokens or the
    error returned, not counting comments never turns a success into a failure, and two
    successful passes under any preferences give the same tokens. -/
theorem tokenize_token_limit (pr : LexicalPreferences) (source file : String) :
    (∀ count span, tokenize pr source file = .error (.tooManyTokens count span) ↔
      ∃ a rest ts kind n hn, source.toList = a ++ rest ∧
        Lexer.Reaches file Position.start source.toList rest ts ∧
        ts.countP (Lexer.countsTowardsLimit pr) = Limits.standard.maxTokenCount ∧
        Lexer.step rest = .token kind n hn ∧
        (kind ≠ .comment ∨ pr.countCommentsTowardsLimit = true) ∧
        count = Limits.standard.maxTokenCount + 1 ∧
        span = Span.covering (Position.start.advanceList a) (rest.take n)) ∧
    (∀ ts, Lexer.Trace file Position.start source.toList ts →
      ts.countP (Lexer.countsTowardsLimit pr) = Limits.standard.maxTokenCount →
      ∃ r, tokenize pr source file = .ok r ∧ r.tokens = ts) ∧
    (∀ pr' : LexicalPreferences, pr'.countCommentsTowardsLimit = pr.countCommentsTowardsLimit →
      (tokenize pr' source file).map Lexed.tokens = (tokenize pr source file).map Lexed.tokens) ∧
    (∀ r, tokenize pr source file = .ok r →
      ∃ r', tokenize { pr with countCommentsTowardsLimit := false } source file = .ok r' ∧
        r'.tokens = r.tokens) ∧
    (∀ pr' r r', tokenize pr source file = .ok r → tokenize pr' source file = .ok r' →
      r'.tokens = r.tokens) := by
  refine ⟨fun count span => ⟨fun h => ?_, fun h => ?_⟩, fun ts htrace hfull =>
    tokenize_ok_iff.2 ⟨htrace, Nat.le_of_eq hfull⟩, fun pr' hsame => ?_, fun r h => ?_,
    fun pr' r r' h h' => ?_⟩
  · obtain ⟨a, rest, ts, hsplit, hreach, -, hstop⟩ :=
      Lexer.run_error (Lexer.tokenize_error_run h) (Nat.zero_le _)
    rcases hstop with ⟨f, n, -, he⟩ | ⟨kind, n, hn, hstep, hc, hfull, he⟩
    · exact absurd he.symm (Lexer.place_ne_tooManyTokens f _ _ _ _)
    · simp only [LexError.tooManyTokens.injEq] at he
      obtain ⟨rfl, rfl⟩ := he
      exact ⟨a, rest, ts, kind, n, hn, hsplit, hreach, by simpa using hfull, hstep,
        (Lexer.countsTowardsLimit_make kind _ _).1 hc, rfl, rfl⟩
  · obtain ⟨a, rest, ts, kind, n, hn, hsplit, hreach, hfull, hstep, hc, rfl, rfl⟩ := h
    -- the scan runs through the tokens within the limit and stops at the next counted one
    obtain ⟨a', s', hsplit', hrun, hpos, -, hcounted⟩ :=
      @Lexer.run_reaches pr file _ _ _ _ hreach ⟨Position.start, #[], 0, {}⟩ rfl
        (by simp [hfull])
    have ha : a' = a := List.append_cancel_right (hsplit'.symm.trans hsplit)
    subst ha
    simp only [Nat.zero_add, hfull] at hcounted
    cases rest with
    | nil => cases hstep
    | cons c rest =>
      have hcount : Lexer.countsTowardsLimit pr (Lexer.tokenAt file s'.pos (c :: rest) kind n) =
          true := (Lexer.countsTowardsLimit_make kind _ _).2 hc
      unfold tokenize
      rw [hrun, Lexer.run_token_over hstep hcount (by omega), hcounted, hpos]
  · have hrun := @Lexer.run_tokens_congr pr file pr' (Lexer.countsTowardsLimit_congr hsame)
      source.toList
      ⟨Position.start, #[], 0, {}⟩ ⟨Position.start, #[], 0, {}⟩ rfl rfl rfl
    rw [Lexer.tokenize_map_tokens, Lexer.tokenize_map_tokens, hrun]
  · -- fewer tokens count when comments do not
    obtain ⟨htrace, hbudget⟩ := tokenize_ok_iff.1 ⟨r, h, rfl⟩
    refine tokenize_ok_iff.2
      ⟨htrace, Nat.le_trans (List.countP_mono_left fun t _ ht => ?_) hbudget⟩
    simp only [Lexer.countsTowardsLimit, Bool.or_false] at ht
    simp [Lexer.countsTowardsLimit, ht]
  · obtain ⟨htrace, -⟩ := tokenize_ok_iff.1 ⟨r, h, rfl⟩
    obtain ⟨htrace', -⟩ := tokenize_ok_iff.1 ⟨r', h', rfl⟩
    exact htrace'.unique htrace

end COutline
