import COutline.Proofs.Lexer.Lookahead

/-!
# Lexing token texts again

A successful pass is characterised by derivations: it succeeds with the tokens `ts` exactly
when `ts` is a derivation over the text whose counted tokens stay within the limit
(`tokenize_ok_iff`).  A line feed lets every lexeme end where it ends (`step_take_append`), so
the texts of a successful pass, one per line, lex to tokens of the same kinds and texts
(`tokenize_relex`): the line feeds between the texts are skipped, and a token counts towards
the limit by its kind alone, so the second pass stays within the limit the first one kept.
-/

namespace COutline

namespace Lexer

/-! ## Successful runs are derivations within the token limit -/

/-- Whether a token counts towards the limit on tokens: every token but a comment, and a
    comment too when the preferences say so. -/
def countsTowardsLimit (p : LexicalPreferences) (t : Token) : Bool :=
  !t.isComment || p.countCommentsTowardsLimit

theorem countsTowardsLimit_eq (p : LexicalPreferences) (t : Token) :
    (!t.isComment || p.countCommentsTowardsLimit) = countsTowardsLimit p t := rfl

variable {pr : LexicalPreferences} {file : String}

/-- A run that succeeds from a state within the token limit appends the tokens of a derivation,
    and the tokens it counts stay within the limit. -/
theorem run_ok_within_budget {cs : List Char} {s s' : Scanner} (h : run pr file cs s = .ok s')
    (hs : s.counted ≤ Limits.standard.maxTokenCount) :
    ∃ ts, s'.tokens.toList = s.tokens.toList ++ ts ∧ Trace file s.pos cs ts ∧
      s.counted + ts.countP (countsTowardsLimit pr) ≤ Limits.standard.maxTokenCount := by
  fun_induction run pr file cs s with
  | case1 s =>
    cases h
    exact ⟨[], by simp, .done _, by simpa using hs⟩
  | case2 s c rest hstep ih =>
    obtain ⟨ts, htoks, htrace, hbudget⟩ := ih h hs
    exact ⟨ts, htoks, .skip hstep htrace, hbudget⟩
  | case3 s c rest kind n hn hstep lexeme span tok counts counted hover =>
    cases h
  | case4 s c rest kind n hn hstep lexeme span tok counts counted hover ih =>
    -- the token passed the limit check, so the count it leaves is within the limit
    have hcounted : counted ≤ Limits.standard.maxTokenCount := by
      by_cases hc : counts = true
      · have hle : ¬ counted > Limits.standard.maxTokenCount := by simpa [hc] using hover
        omega
      · have heq : counted = s.counted := dif_neg hc
        omega
    obtain ⟨ts, htoks, htrace, hbudget⟩ := ih h hcounted
    refine ⟨tok :: ts, by simp [htoks, tok], .token hn hstep htrace, ?_⟩
    dsimp only at hbudget
    have hcount : countsTowardsLimit pr tok = counts := rfl
    rw [List.countP_cons, hcount]
    by_cases hc : counts = true
    · have heq : counted = s.counted + 1 := dif_pos hc
      rw [if_pos hc]
      omega
    · have heq : counted = s.counted := dif_neg hc
      rw [if_neg hc]
      omega
  | case5 s c rest f n hstep =>
    cases h

/-- Conversely, every derivation whose counted tokens stay within the limit is a successful
    run, from any state at its starting position. -/
theorem run_of_trace {p : Position} {cs : List Char} {ts : List Token} (h : Trace file p cs ts) :
    ∀ s : Scanner, s.pos = p →
      s.counted + ts.countP (countsTowardsLimit pr) ≤ Limits.standard.maxTokenCount →
      ∃ s', run pr file cs s = .ok s' ∧ s'.tokens.toList = s.tokens.toList ++ ts := by
  induction h with
  | done p =>
    intro s _ _
    exact ⟨s, by rw [run], by simp⟩
  | @skip p c cs ts hstep _ ih =>
    intro s hpos hbudget
    obtain ⟨s', hrun, htoks⟩ :=
      ih { s with pos := s.pos.advance c, metrics := s.metrics.skip pr } (by rw [hpos]) hbudget
    refine ⟨s', ?_, htoks⟩
    rw [run, hstep]
    exact hrun
  | @token p c cs ts kind n hn hstep _ ih =>
    intro s hpos hbudget
    subst hpos
    rw [List.countP_cons] at hbudget
    rw [run, hstep]
    dsimp only
    rw [countsTowardsLimit_eq]
    obtain ⟨tok, htok⟩ : ∃ tok, Token.make kind (String.ofList ((c :: cs).take n)) file
        (Span.covering s.pos ((c :: cs).take n)) = tok := ⟨_, rfl⟩
    rw [htok] at hbudget ⊢
    -- the token fits the limit, so the run takes it and goes on after its lexeme
    cases hc : countsTowardsLimit pr tok with
    | true =>
      rw [if_pos hc] at hbudget
      obtain ⟨s', hrun, htoks⟩ := ih ⟨(Span.covering s.pos ((c :: cs).take n)).stop,
        s.tokens.push tok, s.counted + 1, s.metrics.record pr tok⟩ rfl (by dsimp only; omega)
      refine ⟨s', ?_, by simp [htoks]⟩
      rw [if_pos rfl, if_neg (by simp; omega)]
      exact hrun
    | false =>
      rw [if_neg (by simp [hc])] at hbudget
      obtain ⟨s', hrun, htoks⟩ := ih ⟨(Span.covering s.pos ((c :: cs).take n)).stop,
        s.tokens.push tok, s.counted, s.metrics.record pr tok⟩ rfl (by dsimp only; omega)
      refine ⟨s', ?_, by simp [htoks]⟩
      rw [if_neg (by simp), if_neg (by simp)]
      exact hrun

/-! ## Texts read back one per line -/

namespace Trace

variable {file : String}

/-- Every token of a derivation is read back from its own text, as the same token, when a line
    feed or nothing follows the text. -/
theorem step_text {p : Position} {cs : List Char} {ts : List Token} (h : Trace file p cs ts)
    {t : Token} (ht : t ∈ ts) {r : List Char} (hr : ∀ d ∈ r.head?, d = '\n') :
    ∃ hn, step (t.text.toList ++ r) = .token t.kind t.text.toList.length hn := by
  obtain ⟨a, rest, kind, n, hn, -, hstep, rfl⟩ := h.exists_of_mem ht
  obtain ⟨hle, hstep'⟩ := step_take_append hstep fun d hd => Or.inl (hr d hd)
  simp only [Token.make, String.toList_ofList, List.length_take_of_le hle]
  exact ⟨hn, hstep'⟩

/-- A text read back as one token, followed by what a derivation reads, is read as that token
    and then the derivation. -/
theorem cons_text {p : Position} {l rest : List Char} {ts : List Token} {kind : TokenKind}
    (hstep : ∃ hn, step (l ++ rest) = .token kind l.length hn)
    (htrace : Trace file (p.advanceList l) rest ts) :
    Trace file p (l ++ rest)
      (Token.make kind (String.ofList l) file (Span.covering p l) :: ts) := by
  obtain ⟨hn, hstep⟩ := hstep
  have htake : (l ++ rest).take l.length = l := List.take_left' rfl
  have hdrop : (l ++ rest).drop l.length = rest := List.drop_left' rfl
  cases l with
  | nil => exact absurd hn (Nat.lt_irrefl 0)
  | cons c x =>
    have key : Trace file p (c :: x ++ rest) (Token.make kind
        (String.ofList ((c :: x ++ rest).take (c :: x).length)) file
        (Span.covering p ((c :: x ++ rest).take (c :: x).length)) :: ts) :=
      Trace.token hn hstep (by simpa using htrace)
    rwa [htake] at key

/-- Texts that are each read back as one token, joined by line feeds, are read as those tokens,
    one after the other: the line feeds between them are skipped. -/
theorem intercalate_texts {ts : List Token}
    (hts : ∀ t ∈ ts, ∀ r : List Char, (∀ d ∈ r.head?, d = '\n') →
      ∃ hn, step (t.text.toList ++ r) = .token t.kind t.text.toList.length hn)
    (p : Position) :
    ∃ ts', Trace file p (['\n'].intercalate (ts.map (·.text.toList))) ts' ∧
      ts'.map (fun t => (t.kind, t.text)) = ts.map (fun t => (t.kind, t.text)) := by
  induction ts generalizing p with
  | nil => exact ⟨[], .done p, rfl⟩
  | cons t us ih =>
    cases us with
    | nil =>
      have hdone : Trace file (p.advanceList t.text.toList) [] [] := .done _
      have htrace := cons_text (hts t List.mem_cons_self [] (by simp)) hdone
      rw [List.append_nil] at htrace
      refine ⟨[Token.make t.kind (String.ofList t.text.toList) file
        (Span.covering p t.text.toList)], ?_, by simp [Token.make]⟩
      simpa using htrace
    | cons u us =>
      obtain ⟨ts', htrace, hsame⟩ := ih (fun t' ht' => hts t' (List.mem_cons_of_mem _ ht'))
        ((p.advanceList t.text.toList).advance '\n')
      have hskip : Trace file (p.advanceList t.text.toList)
          ('\n' :: ['\n'].intercalate ((u :: us).map (·.text.toList))) ts' :=
        .skip ((step_eq_skip_iff _ _).2 rfl) htrace
      have hjoin : ['\n'].intercalate ((t :: u :: us).map (·.text.toList)) =
          t.text.toList ++ '\n' :: ['\n'].intercalate ((u :: us).map (·.text.toList)) := by
        simp
      rw [hjoin]
      refine ⟨_, cons_text (hts t List.mem_cons_self _ (by simp)) hskip, ?_⟩
      simp only [List.map_cons, String.ofList_toList, Token.make] at hsame ⊢
      rw [hsame]

end Trace

end Lexer

/-- A lexing pass succeeds with the tokens `ts` exactly when `ts` is a derivation over the whole
    text whose counted tokens stay within the limit. -/
theorem tokenize_ok_iff {pr : LexicalPreferences} {source file : String} {ts : List Token} :
    (∃ r, tokenize pr source file = .ok r ∧ r.tokens = ts) ↔
      Lexer.Trace file Position.start source.toList ts ∧
        ts.countP (Lexer.countsTowardsLimit pr) ≤ Limits.standard.maxTokenCount := by
  constructor
  · rintro ⟨r, h, rfl⟩
    unfold tokenize at h
    split at h
    · cases h
    · next s hrun =>
      cases h
      obtain ⟨ts, htoks, htrace, hbudget⟩ := Lexer.run_ok_within_budget hrun (Nat.zero_le _)
      rw [htoks]
      exact ⟨htrace, by simpa using hbudget⟩
  · rintro ⟨htrace, hbudget⟩
    obtain ⟨s, hrun, htoks⟩ := Lexer.run_of_trace htrace ⟨Position.start, #[], 0, {}⟩ rfl
      (by simpa using hbudget)
    refine ⟨⟨s.tokens.toList, { s.metrics with lineCount := lineCountOf source s.pos }⟩, ?_,
      by simpa using htoks⟩
    unfold tokenize
    rw [hrun]

/-- Lexing the texts of a successful pass again, one per line, succeeds and gives back the same
    kinds and texts in the same order. -/
theorem tokenize_relex {pr : LexicalPreferences} {source file : String} {r : Lexed}
    (h : tokenize pr source file = .ok r) (file' : String) :
    ∃ r', tokenize pr ("\n".intercalate (r.tokens.map (·.text))) file' = .ok r' ∧
      r'.tokens.map (fun t => (t.kind, t.text)) = r.tokens.map (fun t => (t.kind, t.text)) := by
  obtain ⟨htrace, hbudget⟩ := tokenize_ok_iff.1 ⟨r, h, rfl⟩
  obtain ⟨ts, hjoined, hsame⟩ : ∃ ts, Lexer.Trace file' Position.start
      (['\n'].intercalate (r.tokens.map (·.text.toList))) ts ∧
      ts.map (fun t => (t.kind, t.text)) = r.tokens.map (fun t => (t.kind, t.text)) :=
    Lexer.Trace.intercalate_texts (fun t ht _ hr => htrace.step_text ht hr) Position.start
  have hjoin : ("\n".intercalate (r.tokens.map (·.text))).toList =
      ['\n'].intercalate (r.tokens.map (·.text.toList)) := by
    simp [String.toList_intercalate, List.map_map, Function.comp_def]
  -- whether a token counts towards the limit depends on its kind only
  have hcount : ∀ l : List Token, l.countP (Lexer.countsTowardsLimit pr) =
      (l.map (fun t => (t.kind, t.text))).countP
        (fun x => !(x.1 == .comment) || pr.countCommentsTowardsLimit) := fun l => by
    rw [List.countP_map]
    rfl
  have hjoined' : Lexer.Trace file' Position.start
      ("\n".intercalate (r.tokens.map (·.text))).toList ts := by
    rw [hjoin]
    exact hjoined
  have hbudget' : ts.countP (Lexer.countsTowardsLimit pr) ≤ Limits.standard.maxTokenCount := by
    rw [hcount, hsame, ← hcount]
    exact hbudget
  obtain ⟨r', hr', rfl⟩ := tokenize_ok_iff.2 ⟨hjoined', hbudget'⟩
  exact ⟨r', hr', hsame⟩

/-- A declaration with a trailing comment lexes, and its texts, one per line, lex again to the
    same kinds and texts. -/
theorem tokenize_relex_declaration :
    ∃ r, tokenize {} "int x = 1; // c" "f.c" = .ok r ∧
      ∃ r', tokenize {} ("\n".intercalate (r.tokens.map (·.text))) "g.c" = .ok r' ∧
        r'.tokens.map (fun t => (t.kind, t.text)) = r.tokens.map (fun t => (t.kind, t.text)) := by
  have hok : (tokenize {} "int x = 1; // c" "f.c").toBool = true := by decide +kernel
  cases h : tokenize {} "int x = 1; // c" "f.c" with
  | error e => simp [h, Except.toBool] at hok
  | ok r => exact ⟨r, rfl, tokenize_relex h "g.c"⟩

end COutline
