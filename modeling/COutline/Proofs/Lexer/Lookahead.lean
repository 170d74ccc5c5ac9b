import Mathlib.Data.List.Find
import Mathlib.Data.List.TakeWhile
import COutline.Proofs.Lexer.MaximalMunch

/-!
# The dispatch looks one character past a lexeme

Every lexeme ends where it ends whatever follows it, as long as the character that follows
lets it end: the rules look past a lexeme only to see that it stops there (a word, a digit run
or a line comment at a character that cannot continue it, an operator at a character that
makes no pair with it, a slash at a character that opens no comment), while a string literal or
a block comment ends at its own closing delimiter.  So the first `n` characters of a text that
the dispatch reads as a lexeme of `n` characters are read as the same token whatever comes
after them, provided the next character is the one that followed them, a line feed, or a blank
after a lexeme that is no comment (`step_take_append`).
-/

namespace COutline

namespace Lexeme

/-! ## Lexemes end where they end -/

/-- A run followed by a character outside its class is the whole run again. -/
theorem takeWhile_takeWhile_append (p : Char → Bool) (cs r : List Char)
    (hr : ∀ d ∈ r.head?, p d = false) :
    (cs.takeWhile p ++ r).takeWhile p = cs.takeWhile p := by
  rw [List.takeWhile_append_of_pos (fun _ ha => List.mem_takeWhile_imp ha)]
  cases r with
  | nil => simp
  | cons d ds => simp [hr d rfl]

/-- Outside an escape, one character of a string body is read on its own. -/
theorem stringBody_cons_of_ne {c : Char} (hc : c ≠ '\\') (cs : List Char) (k : Nat) :
    stringBody (c :: cs) k = if c = '"' then some (k + 1) else stringBody cs (k + 1) := by
  cases cs <;> simp [stringBody, hc]

/-- A string body that closes reads no character past its closing quote: cut after it, and
    followed by anything, it closes at the same place. -/
theorem stringBody_take_append {cs : List Char} {k n : Nat} (h : stringBody cs k = some n)
    (r : List Char) : n ≤ k + cs.length ∧ stringBody (cs.take (n - k) ++ r) k = some n := by
  fun_induction stringBody cs k with
  | case1 => cases h
  | case2 => cases h
  | case3 d cs k ih =>
    obtain ⟨hle, hbody⟩ := ih h
    have hgt := stringBody_gt h
    refine ⟨by simp; omega, ?_⟩
    rw [show n - k = n - (k + 2) + 1 + 1 by omega, List.take_succ_cons, List.take_succ_cons]
    exact hbody
  | case4 cs k =>
    cases h
    refine ⟨by simp, ?_⟩
    rw [Nat.add_sub_cancel_left, List.take_one, List.head?_cons, Option.toList_some]
    simp [stringBody]
  | case5 c cs k hnil hcons hquote ih =>
    have hc : c ≠ '\\' := fun hc => by
      cases cs with
      | nil => exact hnil hc rfl
      | cons d ds => exact hcons d ds hc rfl
    obtain ⟨hle, hbody⟩ := ih h
    have hgt := stringBody_gt h
    refine ⟨by simp; omega, ?_⟩
    rw [show n - k = n - (k + 1) + 1 by omega, List.take_succ_cons, List.cons_append,
      stringBody_cons_of_ne hc, if_neg hquote]
    exact hbody

/-- A block comment body that closes reads no character past its closing slash. -/
theorem blockBody_take_append {cs : List Char} {b : Bool} {k n : Nat}
    (h : blockBody cs b k = some n) (r : List Char) :
    n ≤ k + cs.length ∧ blockBody (cs.take (n - k) ++ r) b k = some n := by
  fun_induction blockBody cs b k with
  | case1 => cases h
  | case2 c cs k ih =>
    obtain ⟨hle, hbody⟩ := ih h
    have hgt := blockBody_gt h
    refine ⟨by simp; omega, ?_⟩
    rw [show n - k = n - (k + 1) + 1 by omega, List.take_succ_cons, List.cons_append, blockBody]
    exact hbody
  | case3 cs k =>
    cases h
    refine ⟨by simp, ?_⟩
    rw [Nat.add_sub_cancel_left, List.take_one, List.head?_cons, Option.toList_some]
    simp [blockBody]
  | case4 c cs k hslash ih =>
    obtain ⟨hle, hbody⟩ := ih h
    have hgt := blockBody_gt h
    refine ⟨by simp; omega, ?_⟩
    rw [show n - k = n - (k + 1) + 1 by omega, List.take_succ_cons, List.cons_append, blockBody,
      if_neg hslash]
    exact hbody

end Lexeme

/-! ## A reserved word is a whole run of identifier characters -/

namespace ReservedWord

/-- A reserved word heads a text exactly when it is the whole run of identifier characters
    there. -/
theorem heads_iff {w : ReservedWord} (hw : w ∈ all) (cs : List Char) :
    w.heads cs = true ↔ w.word.toList = cs.takeWhile Lexeme.isIdentifierContinue := by
  have hcont := word_isIdentifierContinue w hw
  simp only [heads, Bool.and_eq_true, Bool.not_eq_true', List.isPrefixOf_iff_prefix]
  constructor
  · rintro ⟨⟨rest, rfl⟩, hnext⟩
    rw [List.drop_left' String.length_toList] at hnext
    rw [List.takeWhile_append_of_pos hcont]
    cases rest with
    | nil => simp
    | cons d ds =>
      have hd : Lexeme.isIdentifierContinue d = false := by simpa using hnext
      simp [hd]
  · intro hword
    have hsplit : cs.takeWhile Lexeme.isIdentifierContinue ++
        cs.dropWhile Lexeme.isIdentifierContinue = cs := List.takeWhile_append_dropWhile
    have hdrop : cs.drop w.word.length = cs.dropWhile Lexeme.isIdentifierContinue := by
      have h := congrArg (List.drop w.word.length) hsplit
      rwa [← hword, List.drop_left' String.length_toList, eq_comm] at h
    rw [hdrop, hword]
    exact ⟨List.takeWhile_prefix _, Lexer.head?_dropWhile_any _ _⟩

end ReservedWord

namespace Lexer

/-! ## Each rule reads its lexeme again -/

section Rules

variable {cs r : List Char} {kind : TokenKind} {n : Nat} {hn : 0 < n}

/-- Cutting after the first `n` characters and appending anything keeps those characters. -/
theorem take_take_append (h : n ≤ cs.length) (r : List Char) :
    (cs.take n ++ r).take n = cs.take n :=
  List.take_left' (List.length_take_of_le h)

theorem comment_take_append {m : Nat} {hm : 0 < m} (h : m ≤ cs.length) (r : List Char) :
    comment (cs.take m ++ r) m hm = comment cs m hm := by
  rw [comment, comment, take_take_append h]

/-- The character `d` may stand after the first `n` characters of `cs`, in place of what
    followed them there, and leave the lexeme of kind `kind` they form ending before it: `d` is a
    line feed, a blank after a lexeme that is no comment, or the very character that followed. -/
def NextKeeps (cs : List Char) (kind : TokenKind) (n : Nat) (d : Char) : Prop :=
  d = '\n' ∨ (d = ' ' ∧ kind ≠ .comment) ∨ (cs.drop n).head? = some d

/-- The character after a run is none of the run's class. -/
theorem head_drop_of_take_eq_takeWhile {p : Char → Bool} {l : List Char} {d : Char}
    (h : l.take n = l.takeWhile p) (hd : (l.drop n).head? = some d) : p d = false := by
  have hdrop : l.drop n = l.dropWhile p := by
    have hsplit : l.take n ++ l.drop n = l.takeWhile p ++ l.dropWhile p := by
      rw [List.take_append_drop, List.takeWhile_append_dropWhile]
    rw [h] at hsplit
    exact List.append_cancel_left hsplit
  have hany := head?_dropWhile_any p l
  rw [← hdrop, hd] at hany
  simpa using hany

/-- A character that may follow a run of a class no line feed or blank belongs to is outside
    the class. -/
theorem NextKeeps.not_run {p : Char → Bool} {d : Char} (hk : NextKeeps cs kind n d)
    (hline : p '\n' = false) (hblank : p ' ' = false) (h : cs.take n = cs.takeWhile p) :
    p d = false := by
  rcases hk with rfl | ⟨rfl, -⟩ | hd
  · exact hline
  · exact hblank
  · exact head_drop_of_take_eq_takeWhile h hd

/-- No pair operator ends in a line feed or a blank. -/
theorem ofList_not_mem_pairOperators (a : Char) {d : Char} (hd : d = '\n' ∨ d = ' ') :
    String.ofList [a, d] ∉ pairOperators := by
  have hlast : ∀ p ∈ pairOperators, p.toList.getLast? ≠ some '\n' ∧ p.toList.getLast? ≠ some ' ' := by
    decide
  intro ha
  rcases hd with rfl | rfl
  · exact (hlast _ ha).1 (by simp)
  · exact (hlast _ ha).2 (by simp)

/-- An operator is read alone or with its pair again when what follows it lets it end there. -/
theorem operatorLength_take_append (c : Char) (x : List Char)
    (hr : ∀ d ∈ r.head?, NextKeeps (c :: x) .operator (operatorLength (c :: x)) d) :
    operatorLength (c :: x) ≤ (c :: x).length ∧
      operatorLength ((c :: x).take (operatorLength (c :: x)) ++ r) = operatorLength (c :: x) := by
  -- a lone character stays alone: what follows it makes no pair with it
  have hlone : operatorLength (c :: x) = 1 → operatorLength (c :: r) = 1 := by
    intro h1
    cases r with
    | nil => rfl
    | cons d ds =>
      rw [operatorLength, if_neg]
      intro hpair
      rcases hr d rfl with hd | ⟨hd, -⟩ | hd
      · exact ofList_not_mem_pairOperators c (Or.inl hd) (List.contains_iff_mem.1 hpair)
      · exact ofList_not_mem_pairOperators c (Or.inr hd) (List.contains_iff_mem.1 hpair)
      · -- the character that followed made no pair, or the operator would have taken it
        rw [h1] at hd
        cases x with
        | nil => cases hd
        | cons d' ds' =>
          cases hd
          rw [operatorLength, if_pos hpair] at h1
          cases h1
  cases x with
  | nil => exact ⟨le_refl _, hlone rfl⟩
  | cons d ds =>
    by_cases hpair : pairOperators.contains (String.ofList [c, d]) = true
    · have h2 : operatorLength (c :: d :: ds) = 2 := by rw [operatorLength, if_pos hpair]
      rw [h2]
      refine ⟨by simp, ?_⟩
      show operatorLength (c :: d :: r) = 2
      rw [operatorLength, if_pos hpair]
    · have h1 : operatorLength (c :: d :: ds) = 1 := by rw [operatorLength, if_neg hpair]
      rw [h1]
      exact ⟨by simp, hlone h1⟩

/-- After a digit run, a character that is no digit ends the constant where it ended. -/
theorem number_takeWhile_append (hr : ∀ d ∈ r.head?, d.isDigit = false) :
    Lexeme.number (cs.takeWhile Char.isDigit ++ r) = Lexeme.number cs := by
  rw [Lexeme.number, Lexeme.number, Lexeme.takeWhile_takeWhile_append _ _ _ hr]

/-- A constant is read again when what follows it lets it end there. -/
theorem constant_take_append {c : Char} {x : List Char} (hd : c.isDigit = true)
    (h : constant (c :: x) = .token kind n hn) (hr : ∀ d ∈ r.head?, NextKeeps (c :: x) kind n d) :
    n ≤ (c :: x).length ∧ constant ((c :: x).take n ++ r) = .token kind n hn := by
  have hrun : Lexeme.number (c :: x) = .matched ((c :: x).takeWhile Char.isDigit).length :=
    ofRun_takeWhile hd
  have hnext : ∀ d ∈ r.head?, d.isDigit = false := fun d hd' =>
    (hr d hd').not_run rfl rfl (constant_lexeme hd h).2
  unfold constant at h
  split at h
  · next m hm =>
    rw [hrun] at hm
    cases hm
    cases h
    refine ⟨(List.takeWhile_prefix _).length_le, ?_⟩
    rw [take_length_takeWhile]
    unfold constant
    split
    · next m' hm' =>
      rw [number_takeWhile_append hnext, hrun] at hm'
      cases hm'
      rfl
    · next hne => exact absurd (by rw [number_takeWhile_append hnext, hrun]) (hne _)
  · next hne => exact absurd hrun (hne _)

/-- After an identifier run, a character that does not continue it leaves the reserved word
    found at the head unchanged. -/
theorem atHead?_takeWhile_append {c : Char} {x : List Char} (hα : c.isAlpha = true)
    (hr : ∀ d ∈ r.head?, Lexeme.isIdentifierContinue d = false) :
    ReservedWord.atHead? ((c :: x).takeWhile Lexeme.isIdentifierContinue ++ r) =
      ReservedWord.atHead? (c :: x) := by
  have hrun := Lexeme.takeWhile_takeWhile_append _ (c :: x) r hr
  have hhead : (c :: x).takeWhile Lexeme.isIdentifierContinue ++ r =
      c :: (x.takeWhile Lexeme.isIdentifierContinue ++ r) := by
    rw [List.takeWhile_cons_of_pos (isIdentifierContinue_of_isAlpha hα), List.cons_append]
  -- both texts start with `c`, and a word of its group heads either exactly when it is the run
  rw [hhead, ReservedWord.atHead?, ReservedWord.atHead?]
  apply List.find?_congr
  intro w hw
  have hwa := ReservedWord.mem_all_of_mem_startingWith c w hw
  rw [Bool.eq_iff_iff, ReservedWord.heads_iff hwa, ReservedWord.heads_iff hwa, ← hhead, hrun]

/-- After an identifier run, a character that does not continue it leaves the run's scan
    unchanged. -/
theorem identifier_takeWhile_append
    (hr : ∀ d ∈ r.head?, Lexeme.isIdentifierContinue d = false) :
    Lexeme.identifier (cs.takeWhile Lexeme.isIdentifierContinue ++ r) = Lexeme.identifier cs := by
  rw [Lexeme.identifier, Lexeme.identifier, Lexeme.takeWhile_takeWhile_append _ _ _ hr]

/-- A word, reserved or not, is read again when what follows it lets it end there. -/
theorem word_take_append {c : Char} {x : List Char} (hα : c.isAlpha = true)
    (h : word (c :: x) = .token kind n hn) (hr : ∀ d ∈ r.head?, NextKeeps (c :: x) kind n d) :
    n ≤ (c :: x).length ∧ word ((c :: x).take n ++ r) = .token kind n hn := by
  have hlex := (word_lexeme hα h).1
  have hnext : ∀ d ∈ r.head?, Lexeme.isIdentifierContinue d = false := fun d hd =>
    (hr d hd).not_run rfl rfl hlex
  have hrun : Lexeme.identifier (c :: x) =
      .matched ((c :: x).takeWhile Lexeme.isIdentifierContinue).length :=
    ofRun_takeWhile (isIdentifierContinue_of_isAlpha hα)
  have hhead : ReservedWord.atHead? ((c :: x).takeWhile Lexeme.isIdentifierContinue ++ r) =
      ReservedWord.atHead? (c :: x) := atHead?_takeWhile_append hα hnext
  rw [hlex]
  unfold word at h
  split at h
  · next w hw =>
    cases h
    have hwa : w ∈ ReservedWord.all := ReservedWord.mem_all_of_mem_startingWith c w
      (List.mem_of_find?_eq_some hw)
    have hfound : (ReservedWord.startingWith c).find? (·.heads (c :: x)) = some w := hw
    have hheads := List.find?_some hfound
    have hword : w.word.toList = (c :: x).takeWhile Lexeme.isIdentifierContinue :=
      (ReservedWord.heads_iff hwa (c :: x)).1 hheads
    refine ⟨?_, ?_⟩
    · rw [← String.length_toList, hword]
      exact (List.takeWhile_prefix _).length_le
    · unfold word
      split
      · next w' hw' =>
        rw [hhead] at hw'
        have : w' = w := Option.some.inj (hw'.symm.trans hw)
        subst this
        rfl
      · next hnone => exact absurd (hhead.trans hw) (by rw [hnone]; simp)
  · next hnone =>
    split at h
    · next m hm =>
      rw [hrun] at hm
      cases hm
      obtain ⟨rfl, rfl⟩ := identifier_token h
      refine ⟨(List.takeWhile_prefix _).length_le, ?_⟩
      unfold word
      split
      · next w' hw' => exact absurd (hhead.symm.trans hw') (by rw [hnone]; simp)
      · split
        · next m' hm' =>
          rw [identifier_takeWhile_append hnext, hrun] at hm'
          cases hm'
          unfold identifier at h ⊢
          rw [List.take_left' rfl]
          rwa [hlex] at h
        · next hne => exact absurd (by rw [identifier_takeWhile_append hnext, hrun]) (hne _)
    · next hne => exact absurd hrun (hne _)

/-- A string literal is read again whatever follows it: it ends at its closing quote. -/
theorem string_take_append {x : List Char} (h : string ('"' :: x) = .token kind n hn)
    (r : List Char) :
    n ≤ ('"' :: x).length ∧ string (('"' :: x).take n ++ r) = .token kind n hn := by
  unfold string at h
  split at h
  · next m hm =>
    have hb : Lexeme.stringBody x 1 = some m := by
      cases hb : Lexeme.stringBody x 1 with
      | none => simp [Lexeme.stringLiteral, hb] at hm
      | some j => simp only [Lexeme.stringLiteral, hb, Scan.matched.injEq] at hm; rw [hm]
    split at h
    · cases h
    · next hsize =>
      cases h
      obtain ⟨hle, hbody⟩ := Lexeme.stringBody_take_append hb r
      have hgt := Lexeme.stringBody_gt hb
      obtain ⟨k, rfl⟩ : ∃ k, n = k + 1 := ⟨n - 1, by omega⟩
      have hlit : Lexeme.stringLiteral (('"' :: x).take (k + 1) ++ r) = .matched (k + 1) := by
        rw [List.take_succ_cons, List.cons_append, Lexeme.stringLiteral]
        rw [Nat.add_sub_cancel] at hbody
        rw [hbody]
      refine ⟨by simp; omega, ?_⟩
      unfold string
      split
      · next m' hm' =>
        rw [hlit] at hm'
        cases hm'
        rw [take_take_append (by simp; omega), if_neg hsize]
      · next m' hm' => rw [hlit] at hm'; cases hm'
      · next hm' => rw [hlit] at hm'; cases hm'
  · cases h
  · next hm => simp [Lexeme.stringLiteral] at hm; split at hm <;> cases hm

/-- A slash that opens no comment is the operator `/`. -/
theorem slash_eq_operator {x : List Char} (hline : ('/' :: x).take 2 ≠ ['/', '/'])
    (hblock : ('/' :: x).take 2 ≠ ['/', '*']) :
    slash ('/' :: x) = .token .operator 1 Nat.one_pos := by
  unfold slash
  split
  · next m hm => rw [lineComment_eq_noMatch hline] at hm; cases hm
  · split
    · next m hm => rw [blockComment_eq_noMatch hblock] at hm; cases hm
    · next m hm => rw [blockComment_eq_noMatch hblock] at hm; cases hm
    · rfl

/-- A slash is read alone again when what follows it opens no comment with it. -/
theorem slash_alone (hr : ∀ d ∈ r.head?, d ≠ '/' ∧ d ≠ '*') :
    slash ('/' :: r) = .token .operator 1 Nat.one_pos := by
  cases r with
  | nil => exact slash_eq_operator (by simp) (by simp)
  | cons d ds =>
    obtain ⟨hline, hblock⟩ := hr d rfl
    exact slash_eq_operator (by simp [hline]) (by simp [hblock])

/-- A line comment is read again when what follows it ends the line. -/
theorem line_comment_take_append {y : List Char} (h : slash ('/' :: '/' :: y) = .token kind n hn)
    (hr : ∀ d ∈ r.head?, NextKeeps ('/' :: '/' :: y) kind n d) :
    n ≤ ('/' :: '/' :: y).length ∧
      slash (('/' :: '/' :: y).take n ++ r) = .token kind n hn := by
  -- a line comment is the run of characters that end no line, the two slashes included
  have hnext : ∀ d ∈ r.head?, (!Lexeme.endsLine d) = false := by
    obtain ⟨hkind, htake⟩ := line_comment_lexeme (by rw [step_slash]; exact h)
    have hrun : ('/' :: '/' :: y).takeWhile (fun d => !Lexeme.endsLine d) =
        '/' :: '/' :: y.takeWhile (fun d => !Lexeme.endsLine d) := by
      rw [List.takeWhile_cons_of_pos rfl, List.takeWhile_cons_of_pos rfl]
    intro d hd
    rcases hr d hd with rfl | ⟨-, hne⟩ | hdrop
    · rfl
    · exact absurd hkind hne
    · exact head_drop_of_take_eq_takeWhile (htake.trans hrun.symm) hdrop
  have hline : Lexeme.lineComment ('/' :: '/' :: y) =
      .matched (2 + (y.takeWhile (fun d => !Lexeme.endsLine d)).length) := rfl
  unfold slash at h
  split at h
  · next m hm =>
    rw [hline] at hm
    cases hm
    obtain ⟨-, rfl⟩ := comment_token h
    have htake : ('/' :: '/' :: y).take (2 + (y.takeWhile (fun d => !Lexeme.endsLine d)).length) =
        '/' :: '/' :: y.takeWhile (fun d => !Lexeme.endsLine d) := by
      rw [Nat.add_comm, List.take_succ_cons, List.take_succ_cons, take_length_takeWhile]
    have hline' : Lexeme.lineComment (('/' :: '/' :: y).take
        (2 + (y.takeWhile (fun d => !Lexeme.endsLine d)).length) ++ r) =
        .matched (2 + (y.takeWhile (fun d => !Lexeme.endsLine d)).length) := by
      rw [htake, List.cons_append, List.cons_append, Lexeme.lineComment,
        Lexeme.takeWhile_takeWhile_append _ _ _ hnext]
    have hle : 2 + (y.takeWhile (fun d => !Lexeme.endsLine d)).length ≤
        ('/' :: '/' :: y).length := by
      have : (y.takeWhile (fun d => !Lexeme.endsLine d)).length ≤ y.length :=
        (List.takeWhile_prefix _).length_le
      simp only [List.length_cons]
      omega
    refine ⟨hle, ?_⟩
    unfold slash
    split
    · next m' hm' =>
      rw [hline'] at hm'
      cases hm'
      rw [comment_take_append hle]
      exact h
    · next hne => exact absurd hline' (hne _)
  · next hne => exact absurd hline (hne _)

/-- A block comment is read again whatever follows it: it ends at its closing slash. -/
theorem block_comment_take_append {y : List Char} (h : slash ('/' :: '*' :: y) = .token kind n hn)
    (r : List Char) :
    n ≤ ('/' :: '*' :: y).length ∧
      slash (('/' :: '*' :: y).take n ++ r) = .token kind n hn := by
  have hline : Lexeme.lineComment ('/' :: '*' :: y) = .noMatch := lineComment_eq_noMatch (by simp)
  unfold slash at h
  split at h
  · next m hm => rw [hline] at hm; cases hm
  · split at h
    · next m hm =>
      have hb : Lexeme.blockBody y false 2 = some m := by
        cases hb : Lexeme.blockBody y false 2 with
        | none => simp [Lexeme.blockComment, hb] at hm
        | some j => simp only [Lexeme.blockComment, hb, Scan.matched.injEq] at hm; rw [hm]
      obtain ⟨-, rfl⟩ := comment_token h
      obtain ⟨hle, hbody⟩ := Lexeme.blockBody_take_append hb r
      have hgt := Lexeme.blockBody_gt hb
      obtain ⟨k, rfl⟩ : ∃ k, n = k + 2 := ⟨n - 2, by omega⟩
      have hsplit : ('/' :: '*' :: y).take (k + 2) ++ r = '/' :: '*' :: (y.take k ++ r) := by
        rw [List.take_succ_cons, List.take_succ_cons]
        rfl
      rw [Nat.add_sub_cancel] at hbody
      have hline' : Lexeme.lineComment (('/' :: '*' :: y).take (k + 2) ++ r) = .noMatch := by
        rw [hsplit]
        exact lineComment_eq_noMatch (by simp)
      have hblock :
          Lexeme.blockComment (('/' :: '*' :: y).take (k + 2) ++ r) = .matched (k + 2) := by
        rw [hsplit, Lexeme.blockComment, hbody]
      have hle' : k + 2 ≤ ('/' :: '*' :: y).length := by simp; omega
      refine ⟨hle', ?_⟩
      unfold slash
      split
      · next m' hm' => rw [hline'] at hm'; cases hm'
      · split
        · next m' hm' =>
          rw [hblock] at hm'
          cases hm'
          rw [comment_take_append hle']
          exact h
        · next m' hm' => rw [hblock] at hm'; cases hm'
        · next hm' => rw [hblock] at hm'; cases hm'
    · cases h
    · next hm => exact absurd hm (blockComment_ne_noMatch y)

/-- A lexeme that starts with a slash, comment or operator, is read again when what follows it
    lets it end there. -/
theorem slash_take_append {x : List Char} (h : slash ('/' :: x) = .token kind n hn)
    (hr : ∀ d ∈ r.head?, NextKeeps ('/' :: x) kind n d) :
    n ≤ ('/' :: x).length ∧ slash (('/' :: x).take n ++ r) = .token kind n hn := by
  cases x with
  | cons d y =>
    by_cases hline : d = '/'
    · subst hline
      exact line_comment_take_append h hr
    by_cases hblock : d = '*'
    · subst hblock
      exact block_comment_take_append h r
    -- neither comment opens, so the slash stands alone, and neither does one after it
    have hop : slash ('/' :: d :: y) = .token .operator 1 Nat.one_pos :=
      slash_eq_operator (by simp [hline]) (by simp [hblock])
    rw [hop] at h
    cases h
    refine ⟨by simp, slash_alone fun e he => ?_⟩
    rcases hr e he with rfl | ⟨rfl, -⟩ | hd
    · decide
    · decide
    · simp only [List.drop_succ_cons, List.drop_zero, List.head?_cons, Option.some.injEq] at hd
      subst hd
      exact ⟨hline, hblock⟩
  | nil =>
    rw [slash_alone (by simp)] at h
    cases h
    refine ⟨le_refl _, slash_alone fun e he => ?_⟩
    rcases hr e he with rfl | ⟨rfl, -⟩ | hd
    · decide
    · decide
    · simp at hd

end Rules

/-- Every lexeme the dispatch takes is read again, as the same token, when what follows it in
    place of the rest of the text lets it end there: each rule looks past its lexeme only to see
    that the lexeme ends there, at the character that followed it, at a line feed, or at a blank
    unless the lexeme is a comment. -/
theorem step_take_append {cs r : List Char} {kind : TokenKind} {n : Nat} {hn : 0 < n}
    (h : step cs = .token kind n hn) (hr : ∀ d ∈ r.head?, NextKeeps cs kind n d) :
    n ≤ cs.length ∧ step (cs.take n ++ r) = .token kind n hn := by
  cases cs with
  | nil => cases h
  | cons c x =>
  obtain ⟨m, rfl⟩ : ∃ m, n = m + 1 := ⟨n - 1, by omega⟩
  -- the lexeme starts with `c`, so the dispatch hands it to the same rule
  have hsplit : (c :: x).take (m + 1) ++ r = c :: (x.take m ++ r) := rfl
  rw [step] at h
  rw [hsplit, step, ← hsplit]
  by_cases h₁ : c = '/'
  · rw [if_pos h₁] at h ⊢
    subst h₁
    exact slash_take_append h hr
  rw [if_neg h₁] at h ⊢
  by_cases h₂ : c = '{'
  · rw [if_pos h₂] at h ⊢
    cases h
    exact ⟨by simp, rfl⟩
  rw [if_neg h₂] at h ⊢
  by_cases h₃ : c = '}'
  · rw [if_pos h₃] at h ⊢
    cases h
    exact ⟨by simp, rfl⟩
  rw [if_neg h₃] at h ⊢
  by_cases h₄ : c = '('
  · rw [if_pos h₄] at h ⊢
    cases h
    exact ⟨by simp, rfl⟩
  rw [if_neg h₄] at h ⊢
  by_cases h₅ : c = ')'
  · rw [if_pos h₅] at h ⊢
    cases h
    exact ⟨by simp, rfl⟩
  rw [if_neg h₅] at h ⊢
  by_cases h₆ : c = '[' ∨ c = ']' ∨ c = ';'
  · rw [if_pos h₆] at h ⊢
    cases h
    exact ⟨by simp, rfl⟩
  rw [if_neg h₆] at h ⊢
  by_cases h₇ : c = '*'
  · rw [if_pos h₇] at h ⊢
    cases h
    exact ⟨by simp, rfl⟩
  rw [if_neg h₇] at h ⊢
  by_cases h₈ : opensOperatorPair c = true
  · rw [if_pos h₈] at h ⊢
    simp only [Step.token.injEq] at h ⊢
    obtain ⟨rfl, hlen⟩ := h
    obtain ⟨hle, hop⟩ := operatorLength_take_append c x (by rw [hlen]; exact hr)
    rw [hlen] at hle hop
    exact ⟨hle, rfl, hop⟩
  rw [if_neg h₈] at h ⊢
  by_cases h₉ : c.isDigit = true
  · rw [if_pos h₉] at h ⊢
    exact constant_take_append h₉ h hr
  rw [if_neg h₉] at h ⊢
  by_cases h₁₀ : c = '"'
  · rw [if_pos h₁₀] at h ⊢
    subst h₁₀
    exact string_take_append h r
  rw [if_neg h₁₀] at h ⊢
  by_cases h₁₁ : Lexeme.isIdentifierStart c = true
  · rw [if_pos h₁₁] at h ⊢
    exact word_take_append h₁₁ h hr
  rw [if_neg h₁₁] at h
  cases h

end Lexer

end COutline
