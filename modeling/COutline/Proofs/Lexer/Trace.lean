import COutline.Lexer.Basic

/-!
# Successful lexing runs as derivations

`Lexer.Trace file p cs ts` says that reading `cs` from position `p` of `file` yields the tokens
`ts`: at each place the dispatch either skips the head character or takes a lexeme of `n ≥ 1`
characters, and the token is made from exactly those characters over the span they cover.
Every successful run of the lexer is such a derivation (`tokenize_trace`), so facts about the
token list follow by induction on the derivation rather than on the lexer's recursion.

The dispatch skips exactly the characters no rule claims (`step_eq_skip_iff`).
-/

namespace COutline

namespace Lexer

/-- The characters the dispatch hands to a rule: ASCII letters and digits, the brackets and
    `;`, the operator characters `/ * = ! < > | & + -` and the double quote. -/
def opensLexeme (c : Char) : Bool :=
  c.isAlpha || c.isDigit ||
    ['/', '{', '}', '(', ')', '[', ']', ';', '*', '=', '!', '<', '>', '|', '&', '+', '-', '"'].contains c

theorem comment_ne_skip (cs : List Char) (n : Nat) (h : 0 < n) : comment cs n h ≠ .skip := by
  unfold comment
  split <;> simp

theorem slash_ne_skip (cs : List Char) : slash cs ≠ .skip := by
  unfold slash
  split
  · exact comment_ne_skip _ _ _
  · split
    · exact comment_ne_skip _ _ _
    · simp
    · simp

theorem string_ne_skip (cs : List Char) : string cs ≠ .skip := by
  unfold string
  split
  · split <;> simp
  · simp
  · simp

theorem identifier_ne_skip (cs : List Char) (n : Nat) (h : 0 < n) :
    identifier cs n h ≠ .skip := by
  unfold identifier
  split <;> simp

theorem word_ne_skip (cs : List Char) : word cs ≠ .skip := by
  unfold word
  split
  · simp
  · split <;> exact identifier_ne_skip _ _ _

theorem constant_ne_skip (cs : List Char) : constant cs ≠ .skip := by
  unfold constant
  split <;> simp

theorem opensOperatorPair_iff (c : Char) : opensOperatorPair c = true ↔
    c = '=' ∨ c = '!' ∨ c = '<' ∨ c = '>' ∨ c = '|' ∨ c = '&' ∨ c = '+' ∨ c = '-' := by
  unfold opensOperatorPair
  simp only [String.reduceToList, List.contains_cons, List.contains_nil, Bool.or_false,
    Bool.or_eq_true, beq_iff_eq]

theorem opensLexeme_eq_false_iff (c : Char) : opensLexeme c = false ↔
    (c.isAlpha = false ∧ c.isDigit = false) ∧ c ≠ '/' ∧ c ≠ '{' ∧ c ≠ '}' ∧ c ≠ '(' ∧
      c ≠ ')' ∧ c ≠ '[' ∧ c ≠ ']' ∧ c ≠ ';' ∧ c ≠ '*' ∧ c ≠ '=' ∧ c ≠ '!' ∧ c ≠ '<' ∧
      c ≠ '>' ∧ c ≠ '|' ∧ c ≠ '&' ∧ c ≠ '+' ∧ c ≠ '-' ∧ c ≠ '"' := by
  simp only [opensLexeme, List.contains_cons, List.contains_nil, Bool.or_false,
    Bool.or_eq_false_iff, beq_eq_false_iff_ne]

/-- A character some rule claims is never skipped.  The tests of the dispatch are taken one at
    a time by `if_pos`/`if_neg`: deciding equalities of character literals is slow. -/
theorem step_ne_skip (c : Char) (cs : List Char) (h : opensLexeme c = true) :
    step (c :: cs) ≠ .skip := by
  rw [step]
  by_cases h₁ : c = '/'
  · rw [if_pos h₁]; exact slash_ne_skip _
  rw [if_neg h₁]
  by_cases h₂ : c = '{'
  · rw [if_pos h₂]; simp
  rw [if_neg h₂]
  by_cases h₃ : c = '}'
  · rw [if_pos h₃]; simp
  rw [if_neg h₃]
  by_cases h₄ : c = '('
  · rw [if_pos h₄]; simp
  rw [if_neg h₄]
  by_cases h₅ : c = ')'
  · rw [if_pos h₅]; simp
  rw [if_neg h₅]
  by_cases h₆ : c = '[' ∨ c = ']' ∨ c = ';'
  · rw [if_pos h₆]; simp
  rw [if_neg h₆]
  by_cases h₇ : c = '*'
  · rw [if_pos h₇]; simp
  rw [if_neg h₇]
  by_cases h₈ : opensOperatorPair c = true
  · rw [if_pos h₈]; simp
  rw [if_neg h₈]
  by_cases h₉ : c.isDigit = true
  · rw [if_pos h₉]; exact constant_ne_skip _
  rw [if_neg h₉]
  by_cases h₁₀ : c = '"'
  · rw [if_pos h₁₀]; exact string_ne_skip _
  rw [if_neg h₁₀]
  by_cases h₁₁ : Lexeme.isIdentifierStart c = true
  · rw [if_pos h₁₁]; exact word_ne_skip _
  -- no test of the dispatch passed, so no rule claims the character
  rw [opensOperatorPair_iff] at h₈
  simp only [not_or] at h₆ h₈
  simp only [Lexeme.isIdentifierStart, Bool.not_eq_true] at h₉ h₁₁
  have hoff : opensLexeme c = false :=
    (opensLexeme_eq_false_iff c).2 ⟨⟨h₁₁, h₉⟩, h₁, h₂, h₃, h₄, h₅, h₆.1, h₆.2.1, h₆.2.2, h₇, h₈.1,
      h₈.2.1, h₈.2.2.1, h₈.2.2.2.1, h₈.2.2.2.2.1, h₈.2.2.2.2.2.1, h₈.2.2.2.2.2.2.1,
      h₈.2.2.2.2.2.2.2, h₁₀⟩
  rw [h] at hoff
  cases hoff

/-- The dispatch skips a character exactly when no rule claims it. -/
theorem step_eq_skip_iff (c : Char) (cs : List Char) :
    step (c :: cs) = .skip ↔ opensLexeme c = false := by
  constructor
  · intro h
    cases hc : opensLexeme c with
    | false => rfl
    | true => exact absurd h (step_ne_skip c cs hc)
  · intro h
    obtain ⟨⟨hα, hd⟩, h₁, h₂, h₃, h₄, h₅, h₆, h₇, h₈, h₉, h₁₀, h₁₁, h₁₂, h₁₃, h₁₄, h₁₅, h₁₆, h₁₇,
      h₁₈⟩ := (opensLexeme_eq_false_iff c).1 h
    have hpair : ¬ opensOperatorPair c = true := by
      rw [opensOperatorPair_iff]
      simp only [not_or]
      exact ⟨h₁₀, h₁₁, h₁₂, h₁₃, h₁₄, h₁₅, h₁₆, h₁₇⟩
    rw [step, if_neg h₁, if_neg h₂, if_neg h₃, if_neg h₄, if_neg h₅,
      if_neg (by simp only [not_or]; exact ⟨h₆, h₇, h₈⟩), if_neg h₉, if_neg hpair,
      if_neg (by simp [hd]), if_neg h₁₈, if_neg (by simp [Lexeme.isIdentifierStart, hα])]

/-- Reading `cs` from `p` in `file` yields `ts`: each character is skipped or begins a lexeme
    whose token is made from exactly the characters it takes. -/
inductive Trace (file : String) : Position → List Char → List Token → Prop
  | done (p : Position) : Trace file p [] []
  | skip {p : Position} {c : Char} {cs : List Char} {ts : List Token} :
      step (c :: cs) = .skip → Trace file (p.advance c) cs ts → Trace file p (c :: cs) ts
  | token {p : Position} {c : Char} {cs : List Char} {ts : List Token} {kind : TokenKind}
      {n : Nat} (h : 0 < n) :
      step (c :: cs) = .token kind n h →
      Trace file (p.advanceList ((c :: cs).take n)) ((c :: cs).drop n) ts →
      Trace file p (c :: cs)
        (Token.make kind (String.ofList ((c :: cs).take n)) file
          (Span.covering p ((c :: cs).take n)) :: ts)

/-- A run that succeeds appends to the tokens it started with exactly the tokens of a
    derivation from its starting position. -/
theorem run_trace {pr : LexicalPreferences} {file : String} {cs : List Char} {s s' : Scanner}
    (h : run pr file cs s = .ok s') :
    ∃ ts, s'.tokens.toList = s.tokens.toList ++ ts ∧ Trace file s.pos cs ts := by
  fun_induction run pr file cs s with
  | case1 s =>
    cases h
    exact ⟨[], by simp, .done _⟩
  | case2 s c rest hstep ih =>
    obtain ⟨ts, htoks, htrace⟩ := ih h
    exact ⟨ts, htoks, .skip hstep htrace⟩
  | case3 s c rest kind n hn hstep lexeme span tok counts counted hover =>
    cases h
  | case4 s c rest kind n hn hstep lexeme span tok counts counted hover ih =>
    obtain ⟨ts, htoks, htrace⟩ := ih h
    refine ⟨tok :: ts, ?_, .token hn hstep htrace⟩
    simp [htoks, tok]
  | case5 s c rest f n hstep =>
    cases h

/-- The tokens of a successful `tokenize` form a derivation over the whole text. -/
theorem tokenize_trace {pr : LexicalPreferences} {source file : String} {r : Lexed}
    (h : tokenize pr source file = .ok r) : Trace file Position.start source.toList r.tokens := by
  unfold tokenize at h
  split at h
  · cases h
  · next s hrun =>
    cases h
    obtain ⟨ts, htoks, htrace⟩ := run_trace hrun
    simpa [htoks] using htrace

namespace Trace

variable {file : String}

/-- Every token of a derivation is made by one step of the dispatch at some suffix of the
    text read, from the position reached after the characters before it. -/
theorem exists_of_mem {p : Position} {cs : List Char} {ts : List Token} {t : Token}
    (h : Trace file p cs ts) (ht : t ∈ ts) :
    ∃ a r kind n, ∃ hn : 0 < n, cs = a ++ r ∧ step r = .token kind n hn ∧
      t = Token.make kind (String.ofList (r.take n)) file (Span.covering (p.advanceList a) (r.take n)) := by
  induction h with
  | done => cases ht
  | @skip p c cs ts _ _ ih =>
    obtain ⟨a, r, kind, n, hn, rfl, hstep, rfl⟩ := ih ht
    exact ⟨c :: a, r, kind, n, hn, rfl, hstep, rfl⟩
  | @token p c cs ts kind n hn hstep _ ih =>
    rcases List.mem_cons.1 ht with rfl | ht
    · exact ⟨[], c :: cs, kind, n, hn, rfl, hstep, rfl⟩
    · obtain ⟨a, r, kind', n', hn', hsplit, hstep', rfl⟩ := ih ht
      refine ⟨(c :: cs).take n ++ a, r, kind', n', hn', ?_, hstep', ?_⟩
      · rw [List.append_assoc, ← hsplit, List.take_append_drop]
      · rw [Position.advanceList_append]

end Trace

end Lexer

end COutline
