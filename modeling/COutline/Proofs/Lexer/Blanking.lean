import COutline.Proofs.Lexer.Relexing
import COutline.Proofs.Analysis.Offsets

/-!
# Blanking the comments of a text

`blankComments source ts` puts a blank in place of every character of `source` that a comment
among the tokens `ts` covers, line feeds excepted.  When `ts` are the tokens of a successful
pass over `source`, the blanked text lexes, under any preferences, to the tokens that are no
comment, with the same kinds, texts, lines and columns; only their byte offsets move, to
`blankedOffset`, since a blank takes one byte where a character of a comment may take up to
four (`tokenize_blankComments`).

The proof follows the derivation of the pass (`Trace.blank`): a skipped character stays
skipped, blank or not; a comment becomes blanks and line feeds, which are skipped; and any
other lexeme keeps its characters and, since the dispatch looks only one character past a
lexeme, is read as the same token, a blank in place of a following comment's slash letting it
end as before.  Blanking keeps every line feed and puts none in, so lines and columns stay, and
`blankedOffset` keeps the order of the places between characters (`relabels_blankedOffset`).
-/

namespace COutline

/-! ## Blanking -/

/-- Each character of `cs`, read from byte offset `o` on, with a blank in place of every
    character but a line feed whose offset `inside` holds of. -/
def blankWhere (inside : Nat → Bool) : Nat → List Char → List Char
  | _, [] => []
  | o, c :: cs => (if inside o ∧ c ≠ '\n' then ' ' else c) :: blankWhere inside (o + c.utf8Size) cs

/-- Whether some comment among `ts` covers the byte at offset `o`. -/
def insideComment (ts : List Token) (o : Nat) : Bool :=
  ts.any fun t => t.isComment && decide (t.span.start.offset ≤ o) && decide (o < t.span.stop.offset)

/-- The text with a blank in place of every character of a comment among `ts`, line feeds
    excepted. -/
def blankComments (source : String) (ts : List Token) : String :=
  String.ofList (blankWhere (insideComment ts) 0 source.toList)

section Blank

variable {inside : Nat → Bool}

@[simp] theorem blankWhere_nil (o : Nat) : blankWhere inside o [] = [] := rfl

theorem blankWhere_cons (o : Nat) (c : Char) (cs : List Char) :
    blankWhere inside o (c :: cs) =
      (if inside o ∧ c ≠ '\n' then ' ' else c) :: blankWhere inside (o + c.utf8Size) cs := rfl

theorem blankWhere_append (o : Nat) (xs ys : List Char) :
    blankWhere inside o (xs ++ ys) =
      blankWhere inside o xs ++ blankWhere inside (o + Utf8.size xs) ys := by
  induction xs generalizing o with
  | nil => simp
  | cons c xs ih => simp [blankWhere_cons, ih, Nat.add_assoc]

@[simp] theorem length_blankWhere (o : Nat) (cs : List Char) :
    (blankWhere inside o cs).length = cs.length := by
  induction cs generalizing o with
  | nil => rfl
  | cons c cs ih => simp [blankWhere_cons, ih]

/-- A blank takes one byte, no more than the character it stands for. -/
theorem size_blankWhere_le (o : Nat) (cs : List Char) :
    Utf8.size (blankWhere inside o cs) ≤ Utf8.size cs := by
  induction cs generalizing o with
  | nil => simp
  | cons c cs ih =>
    have hc := c.utf8Size_pos
    have hblank : (' ' : Char).utf8Size = 1 := rfl
    rw [blankWhere_cons, Utf8.size_cons, Utf8.size_cons]
    have := ih (o + c.utf8Size)
    split <;> omega

theorem Utf8.size_eq_zero_iff {cs : List Char} : Utf8.size cs = 0 ↔ cs = [] := by
  cases cs with
  | nil => simp
  | cons c cs =>
    have := c.utf8Size_pos
    simp only [Utf8.size_cons, reduceCtorEq, iff_false]
    omega

/-- Blanking leaves nothing exactly where there was nothing. -/
theorem size_blankWhere_eq_zero_iff (o : Nat) (cs : List Char) :
    Utf8.size (blankWhere inside o cs) = 0 ↔ Utf8.size cs = 0 := by
  rw [Utf8.size_eq_zero_iff, Utf8.size_eq_zero_iff, ← List.length_eq_zero_iff,
    length_blankWhere, List.length_eq_zero_iff]

/-- Where `inside` holds of every byte, blanking leaves only blanks and line feeds. -/
theorem blankWhere_of_inside {o : Nat} {cs : List Char}
    (h : ∀ o', o ≤ o' → o' < o + Utf8.size cs → inside o' = true) :
    ∀ d ∈ blankWhere inside o cs, d = ' ' ∨ d = '\n' := by
  induction cs generalizing o with
  | nil => simp
  | cons c cs ih =>
    have hc := c.utf8Size_pos
    intro d hd
    rw [blankWhere_cons, List.mem_cons] at hd
    rcases hd with rfl | hd
    · by_cases hlf : c = '\n'
      · rw [if_neg (fun h => h.2 hlf)]
        exact Or.inr hlf
      · rw [if_pos ⟨h o (le_refl _) (by simp; omega), hlf⟩]
        exact Or.inl rfl
    · exact ih (fun o' h₁ h₂ => h o' (by omega) (by simp; omega)) d hd

/-- Where `inside` holds of no byte, blanking changes nothing. -/
theorem blankWhere_of_outside {o : Nat} {cs : List Char}
    (h : ∀ o', o ≤ o' → o' < o + Utf8.size cs → inside o' = false) :
    blankWhere inside o cs = cs := by
  induction cs generalizing o with
  | nil => rfl
  | cons c cs ih =>
    have hc := c.utf8Size_pos
    rw [blankWhere_cons, if_neg (fun hin => by rw [h o (le_refl _) (by simp; omega)] at hin; cases hin.1),
      ih (fun o' h₁ h₂ => h o' (by omega) (by simp; omega))]

/-- Blanking the character after a lexeme that is no comment leaves what the lexer needs to
    end the lexeme there. -/
theorem nextKeeps_blankWhere {cs r : List Char} {kind : TokenKind} {n o : Nat}
    (hk : kind ≠ .comment) (hr : cs.drop n = r) :
    ∀ d ∈ (blankWhere inside o r).head?, Lexer.NextKeeps cs kind n d := by
  cases r with
  | nil => simp
  | cons c r =>
    intro d hd
    rw [blankWhere_cons, List.head?_cons, Option.mem_def, Option.some.injEq] at hd
    subst hd
    split
    · exact Or.inr (Or.inl ⟨rfl, hk⟩)
    · exact Or.inr (Or.inr (by rw [hr]; rfl))

end Blank

/-! ## Lines and columns -/

section LineColumn

variable {inside : Nat → Bool}

/-- Reading a character and reading a blank or itself in its place reach the same line and
    column, as long as both or neither are line feeds. -/
theorem Position.advance_line_column {p q : Position} {c d : Char} (hl : q.line = p.line)
    (hc : q.column = p.column) (hd : d = '\n' ↔ c = '\n') :
    (q.advance d).line = (p.advance c).line ∧ (q.advance d).column = (p.advance c).column := by
  by_cases hlf : c = '\n'
  · simp [Position.advance, hlf, hd.2 hlf, hl]
  · have hd' : d ≠ '\n' := fun h => hlf (hd.1 h)
    simp [Position.advance, hlf, hd', hl, hc]

/-- Blanking keeps lines and columns: only line feeds move to a new line, and blanking keeps
    every line feed and puts none in. -/
theorem advanceList_blankWhere_line_column (o : Nat) (cs : List Char) {p q : Position}
    (hl : q.line = p.line) (hc : q.column = p.column) :
    (q.advanceList (blankWhere inside o cs)).line = (p.advanceList cs).line ∧
      (q.advanceList (blankWhere inside o cs)).column = (p.advanceList cs).column := by
  induction cs generalizing o p q with
  | nil => exact ⟨hl, hc⟩
  | cons c cs ih =>
    have hd : (if inside o ∧ c ≠ '\n' then ' ' else c) = '\n' ↔ c = '\n' := by
      split
      · next h => exact ⟨fun h' => absurd h' (by decide), fun h' => absurd h' h.2⟩
      · exact Iff.rfl
    obtain ⟨hl', hc'⟩ := Position.advance_line_column hl hc hd
    rw [blankWhere_cons, Position.advanceList_cons, Position.advanceList_cons]
    exact ih (o + c.utf8Size) hl' hc'

end LineColumn

/-! ## Where blanking moves a place -/

/-- Where a place of `source` lies once `inside` is blanked: the byte size of the blanked
    characters before it. -/
def blankedOffset (inside : Nat → Bool) (source : List Char) (p : Position) : Nat :=
  match Utf8.splitAt? source p.offset with
  | some (pre, _) => Utf8.size (blankWhere inside 0 pre)
  | none => p.offset

/-- Moving the offsets of a token made over a span moves those of the span. -/
theorem Token.make_reoffset (g : Position → Nat) (kind : TokenKind) (text file : String)
    (sp : Span) : (Token.make kind text file sp).reoffset g = Token.make kind text file (sp.reoffset g) :=
  rfl

/-- The places of `source` between two characters, as reached by reading from its start. -/
def Boundary (source : List Char) (p : Position) : Prop :=
  ∃ pre post, source = pre ++ post ∧ p = Position.start.advanceList pre

section Offsets

variable {inside : Nat → Bool} {source : List Char}

theorem blankedOffset_boundary {pre post : List Char} (hsrc : source = pre ++ post)
    (hfit : Utf8.size source < Position.offsetRange) :
    blankedOffset inside source (Position.start.advanceList pre) =
      Utf8.size (blankWhere inside 0 pre) := by
  subst hsrc
  have hpre : Utf8.size pre < Position.offsetRange := by
    rw [Utf8.size_append] at hfit
    omega
  rw [blankedOffset, Position.start_advanceList_offset pre hpre, Utf8.splitAt?_append]

/-- After reading a prefix of the text, blanking moves the place exactly to where reading the
    blanked prefix leads. -/
theorem reoffset_start_advanceList {pre post : List Char} (hsrc : source = pre ++ post)
    (hfit : Utf8.size source < Position.offsetRange) :
    (Position.start.advanceList pre).reoffset (blankedOffset inside source) =
      Position.start.advanceList (blankWhere inside 0 pre) := by
  have hpre : Utf8.size pre < Position.offsetRange := by
    rw [hsrc, Utf8.size_append] at hfit
    omega
  have hblank : Utf8.size (blankWhere inside 0 pre) < Position.offsetRange :=
    Nat.lt_of_le_of_lt (size_blankWhere_le 0 pre) hpre
  have hlc : (Position.start.advanceList (blankWhere inside 0 pre)).line =
      (Position.start.advanceList pre).line ∧
      (Position.start.advanceList (blankWhere inside 0 pre)).column =
        (Position.start.advanceList pre).column :=
    advanceList_blankWhere_line_column 0 pre rfl rfl
  have hoff : blankedOffset inside source (Position.start.advanceList pre) =
      Utf8.size (blankWhere inside 0 pre) := blankedOffset_boundary hsrc hfit
  cases hq : Position.start.advanceList (blankWhere inside 0 pre) with
  | mk offset line column =>
    rw [hq] at hlc
    have ho : offset = Utf8.size (blankWhere inside 0 pre) := by
      have := Position.start_advanceList_offset _ hblank
      rw [hq] at this
      exact this
    simp only [Position.reoffset, hoff, ho, ← hlc.1, ← hlc.2]

/-- A part of the text that blanking leaves as it is: the span over it moves to the span over
    the same part of the blanked text. -/
theorem covering_reoffset {pre l post : List Char} (hsrc : source = pre ++ l ++ post)
    (hfit : Utf8.size source < Position.offsetRange)
    (hsame : blankWhere inside (Utf8.size pre) l = l) :
    (Span.covering (Position.start.advanceList pre) l).reoffset (blankedOffset inside source) =
      Span.covering (Position.start.advanceList (blankWhere inside 0 pre)) l := by
  have hstart : (Position.start.advanceList pre).reoffset (blankedOffset inside source) =
      Position.start.advanceList (blankWhere inside 0 pre) :=
    reoffset_start_advanceList (hsrc.trans (List.append_assoc _ _ _)) hfit
  have hstop : (Position.start.advanceList (pre ++ l)).reoffset (blankedOffset inside source) =
      Position.start.advanceList (blankWhere inside 0 (pre ++ l)) :=
    reoffset_start_advanceList hsrc hfit
  rw [blankWhere_append, Nat.zero_add, hsame] at hstop
  simp only [Span.covering, Span.reoffset]
  rw [hstart, ← Position.advanceList_append, hstop, Position.advanceList_append]

/-- Blanking keeps the order of the places between characters, and the start of the text. -/
theorem relabels_blankedOffset (hfit : Utf8.size source < Position.offsetRange) :
    Relabels (Boundary source) (blankedOffset inside source) := by
  -- one of two prefixes of the text extends the other, by a part that is empty exactly when
  -- its blanked form is
  have hgrow : ∀ pre mid : List Char,
      (Utf8.size pre < Utf8.size (pre ++ mid) ↔
        Utf8.size (blankWhere inside 0 pre) < Utf8.size (blankWhere inside 0 (pre ++ mid))) ∧
      (Utf8.size (pre ++ mid) < Utf8.size pre ↔
        Utf8.size (blankWhere inside 0 (pre ++ mid)) < Utf8.size (blankWhere inside 0 pre)) := by
    intro pre mid
    have hzero : Utf8.size (blankWhere inside (0 + Utf8.size pre) mid) = 0 ↔ Utf8.size mid = 0 :=
      size_blankWhere_eq_zero_iff _ _
    rw [blankWhere_append, Utf8.size_append, Utf8.size_append]
    constructor <;> constructor <;> intro h <;> omega
  refine ⟨?_, ⟨[], source, rfl, rfl⟩, ?_⟩
  · rintro p q ⟨pre₁, post₁, h₁, rfl⟩ ⟨pre₂, post₂, h₂, rfl⟩
    have hfit₁ : Utf8.size pre₁ < Position.offsetRange := by
      rw [h₁, Utf8.size_append] at hfit
      omega
    have hfit₂ : Utf8.size pre₂ < Position.offsetRange := by
      rw [h₂, Utf8.size_append] at hfit
      omega
    rw [Position.start_advanceList_offset pre₁ hfit₁, Position.start_advanceList_offset pre₂ hfit₂,
      blankedOffset_boundary h₁ hfit, blankedOffset_boundary h₂ hfit]
    rcases List.append_eq_append_iff.1 (h₁.symm.trans h₂) with ⟨mid, rfl, -⟩ | ⟨mid, rfl, -⟩
    · exact (hgrow pre₁ mid).1
    · exact (hgrow pre₂ mid).2
  · have h0 : blankedOffset inside source (Position.start.advanceList []) =
        Utf8.size (blankWhere inside 0 []) := blankedOffset_boundary (List.nil_append source).symm hfit
    simpa using h0

end Offsets

/-! ## Derivations over the blanked text -/

namespace Lexer

namespace Trace

variable {file : String}

/-- Blanks and line feeds are skipped. -/
theorem skip_blanks {q : Position} {w rest : List Char} {ts : List Token}
    (hw : ∀ d ∈ w, d = ' ' ∨ d = '\n') (h : Trace file (q.advanceList w) rest ts) :
    Trace file q (w ++ rest) ts := by
  induction w generalizing q with
  | nil => exact h
  | cons d w ih =>
    have hskip : step (d :: (w ++ rest)) = .skip := by
      rw [step_eq_skip_iff]
      rcases hw d List.mem_cons_self with rfl | rfl <;> rfl
    exact .skip hskip (ih (fun d' hd' => hw d' (List.mem_cons_of_mem _ hd')) h)

/-- The comments among `ts` that cover the byte at offset `o`. -/
def CoveredByComment (ts : List Token) (o : Nat) : Prop :=
  ∃ t ∈ ts, t.isComment = true ∧ t.span.start.offset ≤ o ∧ o < t.span.stop.offset

theorem coveredByComment_cons {t : Token} {ts : List Token} {o : Nat} :
    CoveredByComment (t :: ts) o ↔
      (t.isComment = true ∧ t.span.start.offset ≤ o ∧ o < t.span.stop.offset) ∨
        CoveredByComment ts o := by
  simp only [CoveredByComment, List.mem_cons, exists_eq_or_imp]

/-- Past the end of the first token only the others can cover a byte. -/
theorem coveredByComment_cons_of_le {t : Token} {ts : List Token} {o : Nat}
    (ho : t.span.stop.offset ≤ o) : CoveredByComment (t :: ts) o ↔ CoveredByComment ts o := by
  rw [coveredByComment_cons]
  constructor
  · rintro (⟨-, -, h⟩ | h)
    · omega
    · exact h
  · exact Or.inr

/-- When the first token is no comment and the others start at `b` or later, no comment covers
    a byte before `b`. -/
theorem not_coveredByComment_cons {t : Token} {ts : List Token} {b o : Nat}
    (ht : t.isComment = false) (hafter : ∀ u ∈ ts, b ≤ u.span.start.offset) (ho : o < b) :
    ¬CoveredByComment (t :: ts) o := by
  rw [coveredByComment_cons]
  rintro (⟨hc, -⟩ | ⟨u, hu, -, hs, -⟩)
  · rw [ht] at hc
    cases hc
  · have := hafter u hu
    omega

variable {inside : Nat → Bool} {source : List Char}

/-- Blanking the comments of a text keeps the derivation of every other token: a derivation of
    `ts` over the rest `cs` of `source`, read after `pre`, becomes one over the blanked rest
    from the blanked place, whose tokens are those of `ts` that are no comment, with their
    offsets moved by `blankedOffset`.  `inside` must mark exactly the bytes of the comments
    still to come. -/
theorem blank (hfit : Utf8.size source < Position.offsetRange) {p : Position} {cs : List Char}
    {ts : List Token} (h : Trace file p cs ts) :
    ∀ pre, source = pre ++ cs → p = Position.start.advanceList pre →
      (∀ o, Utf8.size pre ≤ o → (inside o = true ↔ CoveredByComment ts o)) →
      Trace file (Position.start.advanceList (blankWhere inside 0 pre))
        (blankWhere inside (Utf8.size pre) cs)
        ((ts.filter fun t => !t.isComment).map (Token.reoffset (blankedOffset inside source))) := by
  induction h with
  | done p =>
    intro pre _ _ _
    exact .done _
  | @skip p c cs ts hstep _ ih =>
    intro pre hsrc hp hin
    have hnext := ih (pre ++ [c]) (by rw [hsrc, List.append_assoc]; rfl)
      (by rw [hp, Position.advanceList_append]; rfl)
      (fun o ho => hin o (by rw [Utf8.size_append] at ho; omega))
    rw [blankWhere_append, Position.advanceList_append, Utf8.size_append, Utf8.size_cons,
      Utf8.size_nil, Nat.add_zero, Nat.zero_add, blankWhere_cons, blankWhere_nil] at hnext
    rw [blankWhere_cons]
    refine .skip ?_ hnext
    -- a blank is skipped, and so is the character itself
    rw [step_eq_skip_iff]
    split
    · rfl
    · exact (step_eq_skip_iff c cs).1 hstep
  | @token p c cs ts kind n hn hstep htr ih =>
    intro pre hsrc hp hin
    -- the lexeme `l` and the text `r` after it
    obtain ⟨l, hl⟩ : ∃ l, (c :: cs).take n = l := ⟨_, rfl⟩
    obtain ⟨r, hr⟩ : ∃ r, (c :: cs).drop n = r := ⟨_, rfl⟩
    have hlr : c :: cs = l ++ r := by rw [← hl, ← hr, List.take_append_drop]
    have hlen : l.length = n := by
      rw [← hl]
      exact List.length_take_of_le (step_take_append hstep (r := []) (by simp)).1
    rw [hl, hr] at ih htr
    rw [hl] at hin ⊢
    subst hlen
    have hsizes : Utf8.size pre + Utf8.size l + Utf8.size r < Position.offsetRange := by
      rw [hsrc, hlr, Utf8.size_append, Utf8.size_append] at hfit
      omega
    have hpo : p.offset = Utf8.size pre := by
      rw [hp]
      exact Position.start_advanceList_offset pre (by omega)
    have hqo : (p.advanceList l).offset = Utf8.size pre + Utf8.size l := by
      rw [hp, ← Position.advanceList_append, Position.start_advanceList_offset _ (by simp; omega),
        Utf8.size_append]
    -- the token covers the bytes of its lexeme, and the tokens after it start after them
    have hafter := (htr.ordered (by omega)).1
    have ihl := ih (pre ++ l) (by rw [hsrc, hlr, List.append_assoc])
      (by rw [hp, Position.advanceList_append]) (fun o ho => by
        rw [Utf8.size_append] at ho
        rw [hin o (by omega)]
        exact coveredByComment_cons_of_le (by simp only [Token.make, Span.covering, hqo]; omega))
    rw [blankWhere_append, Position.advanceList_append, Utf8.size_append, Nat.zero_add] at ihl
    rw [hlr, blankWhere_append]
    by_cases hk : kind = .comment
    · -- a comment becomes blanks and line feeds, which are skipped
      have hall : ∀ d ∈ blankWhere inside (Utf8.size pre) l, d = ' ' ∨ d = '\n' :=
        blankWhere_of_inside (fun o h₁ h₂ => (hin o h₁).2 ⟨_, List.mem_cons_self, by simp [Token.make, Token.isComment, hk],
          by simp [Token.make, Span.covering, hpo, h₁], by simp [Token.make, Span.covering, hqo, h₂]⟩)
      rw [List.filter_cons_of_neg (by simp [Token.make, Token.isComment, hk])]
      exact skip_blanks hall ihl
    · -- any other lexeme is no comment's byte, stays as it is, and is read again as itself
      have hout : ∀ o, Utf8.size pre ≤ o → o < Utf8.size pre + Utf8.size l → inside o = false := by
        intro o h₁ h₂
        rw [Bool.eq_false_iff]
        intro hcase
        exact not_coveredByComment_cons (by simp [Token.make, Token.isComment, hk]) hafter
          (by rw [hqo]; exact h₂) ((hin o h₁).1 hcase)
      have hsame : blankWhere inside (Utf8.size pre) l = l := blankWhere_of_outside hout
      rw [hsame] at ihl ⊢
      rw [List.filter_cons_of_pos (by simp [Token.make, Token.isComment, hk]), List.map_cons]
      have htok : (Token.make kind (String.ofList l) file (Span.covering p l)).reoffset
          (blankedOffset inside source) = Token.make kind (String.ofList l) file
            (Span.covering (Position.start.advanceList (blankWhere inside 0 pre)) l) := by
        rw [Token.make_reoffset, hp,
          covering_reoffset (by rw [hsrc, hlr, List.append_assoc]) hfit hsame]
      rw [htok]
      have hkeep : ∀ d ∈ (blankWhere inside (Utf8.size pre + Utf8.size l) r).head?,
          NextKeeps (c :: cs) kind l.length d := nextKeeps_blankWhere hk hr
      have hstep' := (step_take_append hstep hkeep).2
      rw [hl] at hstep'
      exact cons_text ⟨hn, hstep'⟩ ihl

end Trace

end Lexer

/-! ## Lexing the blanked text -/

/-- A pass that succeeds under the default preferences keeps every token within the limit
    under any preferences: the default counts every token. -/
theorem countP_countsTowardsLimit_le (pr : LexicalPreferences) (ts : List Token) :
    ts.countP (Lexer.countsTowardsLimit pr) ≤ ts.countP (Lexer.countsTowardsLimit {}) := by
  have hall : ts.countP (Lexer.countsTowardsLimit {}) = ts.length := by
    rw [List.countP_eq_length]
    intro t _
    simp [Lexer.countsTowardsLimit]
  rw [hall]
  exact List.countP_le_length

/-- What passes under the default preferences passes under any, with the same tokens. -/
theorem tokenize_of_default {pr : LexicalPreferences} {source file : String} {r : Lexed}
    (h : tokenize {} source file = .ok r) :
    ∃ r', tokenize pr source file = .ok r' ∧ r'.tokens = r.tokens := by
  obtain ⟨htrace, hbudget⟩ := tokenize_ok_iff.1 ⟨r, h, rfl⟩
  exact tokenize_ok_iff.2 ⟨htrace, (countP_countsTowardsLimit_le pr _).trans hbudget⟩

/-- Blanking the comments of a text that lexes leaves a text that lexes, under any preferences,
    to the tokens that are no comment, each with the same kind, text, line and column, and its
    offsets moved to where blanking puts them. -/
theorem tokenize_blankComments {source file : String} {r : Lexed}
    (hfit : Utf8.size source.toList < Position.offsetRange) (h : tokenize {} source file = .ok r)
    (pr : LexicalPreferences) :
    ∃ r', tokenize pr (blankComments source r.tokens) file = .ok r' ∧
      r'.tokens = (r.tokens.filter fun t => !t.isComment).map
        (Token.reoffset (blankedOffset (insideComment r.tokens) source.toList)) := by
  obtain ⟨htrace, hbudget⟩ := tokenize_ok_iff.1 ⟨r, h, rfl⟩
  have hin : ∀ o, Utf8.size [] ≤ o →
      (insideComment r.tokens o = true ↔ Lexer.Trace.CoveredByComment r.tokens o) := by
    intro o _
    simp [insideComment, Lexer.Trace.CoveredByComment, List.any_eq_true, and_assoc]
  have hblank := htrace.blank hfit [] rfl rfl hin
  rw [blankWhere_nil, Position.advanceList_nil, Utf8.size_nil] at hblank
  refine tokenize_ok_iff.2 ⟨by rw [blankComments, String.toList_ofList]; exact hblank, ?_⟩
  -- the tokens left are fewer, and none of them is a comment
  calc ((r.tokens.filter fun t => !t.isComment).map _).countP (Lexer.countsTowardsLimit pr)
      ≤ ((r.tokens.filter fun t => !t.isComment).map
          (Token.reoffset (blankedOffset (insideComment r.tokens) source.toList))).length :=
        List.countP_le_length
    _ ≤ r.tokens.length := by
        rw [List.length_map]
        exact List.length_filter_le _ _
    _ = r.tokens.countP (Lexer.countsTowardsLimit {}) := by
        rw [List.countP_eq_length.2 (fun t _ => by simp [Lexer.countsTowardsLimit])]
    _ ≤ Limits.standard.maxTokenCount := hbudget

end COutline
