import COutline.Proofs.Lexer.Tiling

/-!
# Maximal munch

Every token of a successful pass is the longest lexeme of the class its first character
selects: a word is the whole run of identifier characters, and a reserved word only when that
whole run is one (so `intx`, `int_` and `doubles` are identifiers, and the order of a letter's
table never matters); a constant is the whole run of digits; an operator character takes its
pair when the next character completes one of the eleven pairs; and a line comment runs up to
the first line break.

`MaximalLexeme` states these rules on the text that follows a token's start, without reference
to the dispatch.  `step_maximal` shows that every lexeme the dispatch takes obeys them.
-/

namespace COutline

namespace ReservedWord

theorem mem_all_of_mem_startingWith (c : Char) : ∀ r ∈ startingWith c, r ∈ all := by
  unfold startingWith
  split <;> decide

theorem mem_startingWith_head : ∀ w ∈ all, w ∈ startingWith (w.word.toList.headD 'a') := by
  decide

-- The table has 32 words, so the pairwise check is left to the kernel.
theorem kind_eq_of_word_eq : ∀ w ∈ all, ∀ w' ∈ all, w.word = w'.word → w.kind = w'.kind := by
  decide +kernel

theorem word_isIdentifierContinue :
    ∀ w ∈ all, ∀ d ∈ w.word.toList, Lexeme.isIdentifierContinue d = true := by
  -- Checked as a boolean: decided as a proposition, the inner quantifier may be read as one
  -- over every character rather than over the word's.
  have h : all.all (fun w => w.word.toList.all Lexeme.isIdentifierContinue) = true := by decide
  simpa only [List.all_eq_true] using h

example : all.length = 32 := by decide

end ReservedWord

namespace Lexer

/-- The longest-lexeme rule for the lexeme `lexeme` of kind `kind` taken at the head of `r`,
    by the class of the head character.  A word is the whole run of identifier characters, of
    the table's kind when it is a reserved word and an identifier otherwise; a constant is the
    whole run of digits; an operator character takes its pair when the first two characters
    form one, and `*` stands alone; a slash starts a line comment that runs to the first line
    break, a block comment, or else is the operator `/`. -/
def MaximalLexeme (r : List Char) (kind : TokenKind) (lexeme : List Char) : Prop :=
  ∀ c rest, r = c :: rest →
    (c.isAlpha = true → lexeme = r.takeWhile Lexeme.isIdentifierContinue ∧
      (∀ w ∈ ReservedWord.all, w.word.toList = lexeme → kind = w.kind) ∧
      ((∀ w ∈ ReservedWord.all, w.word.toList ≠ lexeme) → kind = .identifier)) ∧
    (c.isDigit = true → kind = .constant ∧ lexeme = r.takeWhile Char.isDigit) ∧
    (c ∈ ['=', '!', '<', '>', '|', '&', '+', '-'] → kind = .operator ∧
      lexeme = if String.ofList (r.take 2) ∈ pairOperators then r.take 2 else [c]) ∧
    (c = '*' → kind = .operator ∧ lexeme = ['*']) ∧
    (r.take 2 = ['/', '/'] → kind = .comment ∧
      lexeme = '/' :: '/' :: (rest.drop 1).takeWhile (fun d => !Lexeme.endsLine d)) ∧
    (r.take 2 = ['/', '*'] → kind = .comment ∧ ∃ n, Lexeme.blockComment r = .matched n ∧
      lexeme = r.take n) ∧
    (c = '/' → r.take 2 ≠ ['/', '/'] → r.take 2 ≠ ['/', '*'] →
      kind = .operator ∧ lexeme = ['/'])

theorem isDigit_eq_false_of_isAlpha {c : Char} (h : c.isAlpha = true) : c.isDigit = false := by
  delta Char.isAlpha Char.isUpper Char.isLower at h
  simp only [Bool.or_eq_true, Bool.and_eq_true, decide_eq_true_eq] at h
  simp only [Char.isDigit, Bool.and_eq_false_iff, decide_eq_false_iff_not]
  rcases h with ⟨hlo, _⟩ | ⟨hlo, _⟩
  · exact .inr fun hhi => absurd (UInt32.le_trans hlo hhi) (by decide)
  · exact .inr fun hhi => absurd (UInt32.le_trans hlo hhi) (by decide)

theorem isIdentifierContinue_of_isAlpha {c : Char} (h : c.isAlpha = true) :
    Lexeme.isIdentifierContinue c = true := by
  simp [Lexeme.isIdentifierContinue, Char.isAlphanum, h]

/-! ## What the dispatch does for each class of head character -/

section Dispatch

variable {c : Char} {cs : List Char}

theorem step_of_isAlpha (h : c.isAlpha = true) : step (c :: cs) = word (c :: cs) := by
  have ne : ∀ x : Char, x.isAlpha = false → c ≠ x := fun x hx hcx => by
    rw [hcx, hx] at h
    cases h
  have hpair : ¬ opensOperatorPair c = true := by
    rw [opensOperatorPair_iff]
    rintro (h' | h' | h' | h' | h' | h' | h' | h') <;> exact ne _ (by decide) h'
  rw [step, if_neg (ne '/' (by decide)), if_neg (ne '{' (by decide)), if_neg (ne '}' (by decide)),
    if_neg (ne '(' (by decide)), if_neg (ne ')' (by decide)),
    if_neg (by rintro (h' | h' | h') <;> exact ne _ (by decide) h'), if_neg (ne '*' (by decide)),
    if_neg hpair, if_neg (by simp [isDigit_eq_false_of_isAlpha h]), if_neg (ne '"' (by decide)),
    if_pos (by simpa [Lexeme.isIdentifierStart] using h)]

theorem step_of_isDigit (h : c.isDigit = true) : step (c :: cs) = constant (c :: cs) := by
  have ne : ∀ x : Char, x.isDigit = false → c ≠ x := fun x hx hcx => by
    rw [hcx, hx] at h
    cases h
  have hpair : ¬ opensOperatorPair c = true := by
    rw [opensOperatorPair_iff]
    rintro (h' | h' | h' | h' | h' | h' | h' | h') <;> exact ne _ (by decide) h'
  rw [step, if_neg (ne '/' (by decide)), if_neg (ne '{' (by decide)), if_neg (ne '}' (by decide)),
    if_neg (ne '(' (by decide)), if_neg (ne ')' (by decide)),
    if_neg (by rintro (h' | h' | h') <;> exact ne _ (by decide) h'), if_neg (ne '*' (by decide)),
    if_neg hpair, if_pos h]

theorem step_of_opensOperatorPair (h : opensOperatorPair c = true) :
    step (c :: cs) = .token .operator (operatorLength (c :: cs)) (operatorLength_pos _) := by
  have ne : ∀ x : Char, opensOperatorPair x = false → c ≠ x := fun x hx hcx => by
    rw [hcx, hx] at h
    cases h
  have hno : ∀ x : Char, ¬ (x = '=' ∨ x = '!' ∨ x = '<' ∨ x = '>' ∨ x = '|' ∨ x = '&' ∨ x = '+' ∨
      x = '-') → opensOperatorPair x = false := fun x hx => by
    rw [← Bool.not_eq_true, opensOperatorPair_iff]
    exact hx
  rw [step, if_neg (ne '/' (hno _ (by decide))), if_neg (ne '{' (hno _ (by decide))),
    if_neg (ne '}' (hno _ (by decide))), if_neg (ne '(' (hno _ (by decide))),
    if_neg (ne ')' (hno _ (by decide))),
    if_neg (by rintro (h' | h' | h') <;> exact ne _ (hno _ (by decide)) h'),
    if_neg (ne '*' (hno _ (by decide))), if_pos h]

theorem step_star : step ('*' :: cs) = .token .operator 1 Nat.one_pos := by
  rw [step, if_neg (by decide), if_neg (by decide), if_neg (by decide), if_neg (by decide),
    if_neg (by decide), if_neg (by decide), if_pos rfl]

theorem step_slash : step ('/' :: cs) = slash ('/' :: cs) := by
  rw [step, if_pos rfl]

end Dispatch

/-! ## The lexeme each rule takes -/

section Lexemes

variable {c : Char} {cs : List Char} {kind : TokenKind} {n : Nat} {hn : 0 < n}

theorem identifier_token {m : Nat} {hm : 0 < m} (h : identifier cs m hm = .token kind n hn) :
    kind = .identifier ∧ n = m := by
  unfold identifier at h
  split at h
  · cases h
  · cases h
    exact ⟨rfl, rfl⟩

theorem comment_token {m : Nat} {hm : 0 < m} (h : comment cs m hm = .token kind n hn) :
    kind = .comment ∧ n = m := by
  unfold comment at h
  split at h
  · cases h
  · cases h
    exact ⟨rfl, rfl⟩

/-- A run of a class that the head character opens is a complete match of its length. -/
theorem ofRun_takeWhile {p : Char → Bool} (h : p c = true) :
    Scan.ofRun ((c :: cs).takeWhile p).length = .matched ((c :: cs).takeWhile p).length := by
  simp [Scan.ofRun, h]

theorem take_length_takeWhile (p : Char → Bool) (l : List Char) :
    l.take (l.takeWhile p).length = l.takeWhile p :=
  (List.prefix_iff_eq_take.1 (List.takeWhile_prefix p)).symm

/-- The character after a run, if any, does not continue it. -/
theorem head?_dropWhile_any (p : Char → Bool) (l : List Char) :
    (l.dropWhile p).head?.any p = false := by
  have hnext := List.head?_dropWhile_not p l
  cases hd : (l.dropWhile p).head? with
  | none => rfl
  | some x =>
    rw [hd] at hnext
    exact hnext

/-- No reserved word is the whole identifier run at the head when the table finds none there:
    the run is a prefix that no identifier character follows. -/
theorem not_reserved_of_atHead?_eq_none (hα : c.isAlpha = true)
    (hr : ReservedWord.atHead? (c :: cs) = none) :
    ∀ w ∈ ReservedWord.all, w.word.toList ≠ (c :: cs).takeWhile Lexeme.isIdentifierContinue := by
  intro w hw hword
  have hstart : w ∈ ReservedWord.startingWith c := by
    have := ReservedWord.mem_startingWith_head w hw
    rwa [hword, List.takeWhile_cons_of_pos (isIdentifierContinue_of_isAlpha hα)] at this
  have hheads : w.heads (c :: cs) = true := by
    have hlen : w.word.length = ((c :: cs).takeWhile Lexeme.isIdentifierContinue).length := by
      rw [← String.length_toList, hword]
    simp only [ReservedWord.heads, hword, Bool.and_eq_true, Bool.not_eq_true']
    refine ⟨List.isPrefixOf_iff_prefix.2 (List.takeWhile_prefix _), ?_⟩
    have hdrop : ((c :: cs).takeWhile Lexeme.isIdentifierContinue ++
        (c :: cs).dropWhile Lexeme.isIdentifierContinue).drop
          ((c :: cs).takeWhile Lexeme.isIdentifierContinue).length =
        (c :: cs).dropWhile Lexeme.isIdentifierContinue := List.drop_left' rfl
    rw [List.takeWhile_append_dropWhile] at hdrop
    rw [hlen, hdrop]
    exact head?_dropWhile_any _ _
  simp only [ReservedWord.atHead?, List.find?_eq_none] at hr
  exact hr w hstart hheads

/-- A word is the whole identifier run at the head: the reserved word the table finds stands
    whole, and otherwise the run is taken as an identifier. -/
theorem word_lexeme (hα : c.isAlpha = true) (h : word (c :: cs) = .token kind n hn) :
    (c :: cs).take n = (c :: cs).takeWhile Lexeme.isIdentifierContinue ∧
      (∀ w ∈ ReservedWord.all, w.word.toList = (c :: cs).take n → kind = w.kind) ∧
      ((∀ w ∈ ReservedWord.all, w.word.toList ≠ (c :: cs).take n) → kind = .identifier) := by
  unfold word at h
  split at h
  · next r hr =>
    cases h
    have hfound : (ReservedWord.startingWith c).find? (·.heads (c :: cs)) = some r := hr
    have hall : r ∈ ReservedWord.all :=
      ReservedWord.mem_all_of_mem_startingWith c r (List.mem_of_find?_eq_some hfound)
    have hheads := List.find?_some hfound
    simp only [ReservedWord.heads, Bool.and_eq_true, Bool.not_eq_true'] at hheads
    obtain ⟨rest, hsplit⟩ := List.isPrefixOf_iff_prefix.1 hheads.1
    have htake : (c :: cs).take r.word.length = r.word.toList := by
      rw [← hsplit, List.take_left' String.length_toList]
    have hnext : (rest.head?.any Lexeme.isIdentifierContinue) = false := by
      have hdrop : (r.word.toList ++ rest).drop r.word.length = rest :=
        List.drop_left' String.length_toList
      rw [← hdrop, hsplit]
      exact hheads.2
    refine ⟨?_, fun w hw hword => ?_, fun hnone => absurd htake.symm (hnone r hall)⟩
    · rw [htake, ← hsplit, List.takeWhile_append_of_pos (ReservedWord.word_isIdentifierContinue r hall)]
      cases rest with
      | nil => simp
      | cons d ds => simp_all
    · rw [htake] at hword
      exact ReservedWord.kind_eq_of_word_eq r hall w hw (String.toList_inj.1 hword.symm)
  · next hr =>
    have hcont := isIdentifierContinue_of_isAlpha hα
    have hrun : Lexeme.identifier (c :: cs) =
        .matched ((c :: cs).takeWhile Lexeme.isIdentifierContinue).length :=
      ofRun_takeWhile hcont
    split at h
    · next m hm =>
      rw [hrun] at hm
      cases hm
      obtain ⟨rfl, rfl⟩ := identifier_token h
      rw [take_length_takeWhile]
      have hnot := not_reserved_of_atHead?_eq_none hα hr
      exact ⟨rfl, fun w hw hword => absurd hword (hnot w hw), fun _ => rfl⟩
    · next hne => exact absurd hrun (hne _)

theorem constant_lexeme (hd : c.isDigit = true) (h : constant (c :: cs) = .token kind n hn) :
    kind = .constant ∧ (c :: cs).take n = (c :: cs).takeWhile Char.isDigit := by
  have hrun : Lexeme.number (c :: cs) = .matched ((c :: cs).takeWhile Char.isDigit).length :=
    ofRun_takeWhile hd
  unfold constant at h
  split at h
  · next m hm =>
    rw [hrun] at hm
    cases hm
    cases h
    exact ⟨rfl, take_length_takeWhile _ _⟩
  · next hne => exact absurd hrun (hne _)

/-- An operator character takes its pair exactly when the first two characters form one. -/
theorem pair_lexeme (hp : opensOperatorPair c = true) (h : step (c :: cs) = .token kind n hn) :
    kind = .operator ∧ (c :: cs).take n =
      if String.ofList ((c :: cs).take 2) ∈ pairOperators then (c :: cs).take 2 else [c] := by
  rw [step_of_opensOperatorPair hp] at h
  cases h
  refine ⟨rfl, ?_⟩
  cases cs with
  | nil => simp [operatorLength]
  | cons d ds =>
    show (c :: d :: ds).take (operatorLength (c :: d :: ds)) =
      if String.ofList [c, d] ∈ pairOperators then [c, d] else [c]
    rw [operatorLength]
    by_cases hpair : String.ofList [c, d] ∈ pairOperators
    · rw [if_pos (List.contains_iff_mem.2 hpair), if_pos hpair]
      rfl
    · rw [if_neg (fun h => hpair (List.contains_iff_mem.1 h)), if_neg hpair]
      rfl

theorem lineComment_eq_noMatch {r : List Char} (h : r.take 2 ≠ ['/', '/']) :
    Lexeme.lineComment r = .noMatch := by
  unfold Lexeme.lineComment
  split
  · simp at h
  · rfl

theorem blockComment_eq_noMatch {r : List Char} (h : r.take 2 ≠ ['/', '*']) :
    Lexeme.blockComment r = .noMatch := by
  unfold Lexeme.blockComment
  split
  · simp at h
  · rfl

theorem blockComment_ne_noMatch (cs : List Char) :
    Lexeme.blockComment ('/' :: '*' :: cs) ≠ .noMatch := by
  rw [Lexeme.blockComment.eq_1]
  split <;> simp

/-- After `//` the comment runs up to, not including, the first line break. -/
theorem line_comment_lexeme (h : step ('/' :: '/' :: cs) = .token kind n hn) :
    kind = .comment ∧
      ('/' :: '/' :: cs).take n = '/' :: '/' :: cs.takeWhile (fun d => !Lexeme.endsLine d) := by
  rw [step_slash] at h
  unfold slash at h
  split at h
  · next m hm =>
    simp only [Lexeme.lineComment, Scan.matched.injEq] at hm
    obtain ⟨rfl, rfl⟩ := comment_token h
    refine ⟨rfl, ?_⟩
    rw [← hm, show 2 + (cs.takeWhile fun d => !Lexeme.endsLine d).length =
      (cs.takeWhile fun d => !Lexeme.endsLine d).length + 1 + 1 by omega,
      List.take_succ_cons, List.take_succ_cons, take_length_takeWhile]
  · next hne => exact absurd rfl (hne _)

/-- After `/*` the token is the complete block comment. -/
theorem block_comment_lexeme (h : step ('/' :: '*' :: cs) = .token kind n hn) :
    kind = .comment ∧ ∃ m, Lexeme.blockComment ('/' :: '*' :: cs) = .matched m ∧
      ('/' :: '*' :: cs).take n = ('/' :: '*' :: cs).take m := by
  rw [step_slash] at h
  unfold slash at h
  split at h
  · next m hm =>
    rw [lineComment_eq_noMatch (by simp)] at hm
    cases hm
  · split at h
    · next m hm =>
      obtain ⟨rfl, rfl⟩ := comment_token h
      exact ⟨rfl, _, hm, rfl⟩
    · cases h
    · next hm => exact absurd hm (blockComment_ne_noMatch cs)

/-- A slash that opens no comment is the operator `/`. -/
theorem slash_operator_lexeme (hline : ('/' :: cs).take 2 ≠ ['/', '/'])
    (hblock : ('/' :: cs).take 2 ≠ ['/', '*']) (h : step ('/' :: cs) = .token kind n hn) :
    kind = .operator ∧ ('/' :: cs).take n = ['/'] := by
  rw [step_slash] at h
  unfold slash at h
  split at h
  · next m hm =>
    rw [lineComment_eq_noMatch hline] at hm
    cases hm
  · split at h
    · next m hm =>
      rw [blockComment_eq_noMatch hblock] at hm
      cases hm
    · next m hm =>
      rw [blockComment_eq_noMatch hblock] at hm
      cases hm
    · cases h
      exact ⟨rfl, rfl⟩

end Lexemes

/-- Every lexeme the dispatch takes is the longest one of its class. -/
theorem step_maximal {r : List Char} {kind : TokenKind} {n : Nat} {hn : 0 < n}
    (h : step r = .token kind n hn) : MaximalLexeme r kind (r.take n) := by
  rintro c rest rfl
  refine ⟨fun hα => word_lexeme hα (by rwa [step_of_isAlpha hα] at h),
    fun hd => constant_lexeme hd (by rwa [step_of_isDigit hd] at h),
    fun hp => pair_lexeme ((opensOperatorPair_iff c).2 (by simpa using hp)) h, ?_,
    fun hline => ?_, fun hblock => ?_, ?_⟩
  · rintro rfl
    rw [step_star] at h
    cases h
    exact ⟨rfl, rfl⟩
  · obtain ⟨rfl, d, rest, rfl, rfl⟩ : c = '/' ∧ ∃ d rest', rest = d :: rest' ∧ d = '/' := by
      cases rest with
      | nil => simp at hline
      | cons d rest' => simp at hline; exact ⟨hline.1, d, rest', rfl, hline.2⟩
    simpa using line_comment_lexeme h
  · obtain ⟨rfl, d, rest, rfl, rfl⟩ : c = '/' ∧ ∃ d rest', rest = d :: rest' ∧ d = '*' := by
      cases rest with
      | nil => simp at hblock
      | cons d rest' => simp at hblock; exact ⟨hblock.1, d, rest', rfl, hblock.2⟩
    exact block_comment_lexeme h
  · rintro rfl hline hblock
    exact slash_operator_lexeme hline hblock h

end Lexer

/-- Every token of a successful lexing pass is the longest lexeme of the class selected by the
    first character of the text from its start offset on. -/
theorem tokenize_maximal_munch {pr : LexicalPreferences} {source file : String} {r : Lexed}
    (hfit : Utf8.size source.toList < Position.offsetRange)
    (h : tokenize pr source file = .ok r) :
    ∀ t ∈ r.tokens, ∃ pre rest, Utf8.splitAt? source.toList t.span.start.offset = some (pre, rest) ∧
      Lexer.MaximalLexeme rest t.kind t.text.toList := by
  intro t ht
  obtain ⟨a, rest, kind, n, hn, hsrc, hstep, rfl⟩ := (Lexer.tokenize_trace h).exists_of_mem ht
  have hsize : Utf8.size a < Position.offsetRange := by
    rw [hsrc, Utf8.size_append] at hfit
    omega
  refine ⟨a, rest, ?_, ?_⟩
  · simp only [Token.make, Span.covering]
    rw [Position.start_advanceList_offset a hsize, hsrc]
    exact Utf8.splitAt?_append a rest
  · simpa [Token.make] using Lexer.step_maximal hstep

/-- In `intx=p->q // c` the word `intx` is one identifier, `->` one operator and the comment
    runs to the end. -/
theorem tokenize_maximal_munch_arrow :
    ∃ r, Utf8.size "intx=p->q // c".toList < Position.offsetRange ∧
      tokenize {} "intx=p->q // c" "f.c" = .ok r ∧
      ∀ t ∈ r.tokens, ∃ pre rest,
        Utf8.splitAt? "intx=p->q // c".toList t.span.start.offset = some (pre, rest) ∧
        Lexer.MaximalLexeme rest t.kind t.text.toList := by
  have hfit : Utf8.size "intx=p->q // c".toList < Position.offsetRange := by decide
  have hok : (tokenize {} "intx=p->q // c" "f.c").toBool = true := by decide +kernel
  cases h : tokenize {} "intx=p->q // c" "f.c" with
  | error e => simp [h, Except.toBool] at hok
  | ok r => exact ⟨r, hfit, rfl, tokenize_maximal_munch hfit h⟩

end COutline
