import COutline.Proofs.Lexer.Trace

/-!
# The tokens tile the source

A successful lexing pass lays its tokens over the source in order.  Every token is the exact
text between its span's byte offsets, tokens never overlap and come in source order, and a
character that no token covers is one the dispatch skips.  The offsets are exact as long as
the text fits the offset counter, which every text a program can hold does.
-/

namespace COutline

namespace Utf8

/-- Cutting at the byte size of a prefix passes exactly that prefix. -/
theorem splitAtFrom_append (pre rest acc : List Char) :
    splitAtFrom (pre ++ rest) (size pre) acc = some (acc.reverse ++ pre, rest) := by
  induction pre generalizing acc with
  | nil => simp [splitAtFrom]
  | cons c pre ih =>
    have hpos := c.utf8Size_pos
    obtain ⟨k, hk⟩ : ∃ k, c.utf8Size + size pre = k + 1 := ⟨c.utf8Size + size pre - 1, by omega⟩
    rw [List.cons_append, size_cons, hk, splitAtFrom, if_pos (by omega),
      show k + 1 - c.utf8Size = size pre by omega, ih]
    simp

/-- Cutting a text at the byte size of one of its prefixes gives that prefix back. -/
theorem splitAt?_append (pre rest : List Char) :
    splitAt? (pre ++ rest) (size pre) = some (pre, rest) := by
  simp [splitAt?, splitAtFrom_append]

/-- The bytes of `mid` inside `pre ++ mid ++ post` are read back as `mid`. -/
theorem slice?_append (pre mid post : List Char) :
    slice? (pre ++ mid ++ post) (size pre) (size pre + size mid) = some mid := by
  simp [slice?, List.append_assoc, splitAt?_append]

end Utf8

namespace Position

/-- Offsets stay below the counter's range. -/
theorem advanceList_offset_lt (p : Position) (cs : List Char) (h : p.offset < offsetRange) :
    (p.advanceList cs).offset < offsetRange := by
  induction cs generalizing p with
  | nil => exact h
  | cons c cs ih =>
    rw [advanceList_cons]
    exact ih _ (by rw [advance_offset]; exact Nat.mod_lt _ (by decide))

/-- While the counter does not wrap, reading `cs` moves the offset by its byte size. -/
theorem advanceList_offset_eq (p : Position) (cs : List Char)
    (h : p.offset + Utf8.size cs < offsetRange) :
    (p.advanceList cs).offset = p.offset + Utf8.size cs := by
  have hmod := advanceList_offset p cs
  have hlt := advanceList_offset_lt p cs (by omega)
  rwa [Nat.mod_eq_of_lt hlt, Nat.mod_eq_of_lt h] at hmod

theorem advance_offset_eq (p : Position) (c : Char) (h : p.offset + c.utf8Size < offsetRange) :
    (p.advance c).offset = p.offset + c.utf8Size := by
  rw [advance_offset, Nat.mod_eq_of_lt h]

/-- From the start of a text, the offset is the byte size of what was read. -/
theorem start_advanceList_offset (cs : List Char) (h : Utf8.size cs < offsetRange) :
    (start.advanceList cs).offset = Utf8.size cs := by
  rw [advanceList_offset_eq start cs (by simpa [start] using h)]
  simp [start]

end Position

namespace Lexer

namespace Trace

variable {file : String}

/-- A token of a derivation from the start of `src` is the non-empty text between its span's
    offsets, and it is located at the start of its span. -/
theorem token_reads {src : List Char} {ts : List Token} {t : Token}
    (h : Trace file Position.start src ts) (hfit : Utf8.size src < Position.offsetRange)
    (ht : t ∈ ts) :
    t.text ≠ "" ∧ Utf8.slice? src t.span.start.offset t.span.stop.offset = some t.text.toList ∧
      t.location = ⟨file, t.span.start.line, t.span.start.column⟩ := by
  obtain ⟨a, r, kind, n, hn, rfl, hstep, rfl⟩ := h.exists_of_mem ht
  -- the dispatch never takes a lexeme from an empty text
  have hr : r ≠ [] := by
    rintro rfl
    simp [step] at hstep
  have hlex : r.take n ≠ [] := by simp [List.take_eq_nil_iff, hr]; omega
  have hsplit : a ++ r = a ++ r.take n ++ r.drop n := by
    rw [List.append_assoc, List.take_append_drop]
  have hsize : Utf8.size (a ++ r.take n) ≤ Utf8.size (a ++ r) := by
    rw [hsplit, Utf8.size_append (a ++ r.take n)]
    omega
  have hsize' : Utf8.size a ≤ Utf8.size (a ++ r.take n) := by
    rw [Utf8.size_append]
    omega
  have hstart : (Position.start.advanceList a).offset = Utf8.size a :=
    Position.start_advanceList_offset a (by omega)
  have hstop : (Position.start.advanceList (a ++ r.take n)).offset = Utf8.size (a ++ r.take n) :=
    Position.start_advanceList_offset _ (by omega)
  refine ⟨fun hempty => hlex ?_, ?_, rfl⟩
  · have htext : String.ofList (r.take n) = "" := hempty
    simpa using congrArg String.toList htext
  simp only [Token.make, Span.covering, String.toList_ofList]
  rw [hstart, ← Position.advanceList_append, hstop, hsplit, Utf8.size_append]
  exact Utf8.slice?_append a (r.take n) (r.drop n)

/-- Tokens start no earlier than the place the derivation starts from, and each one ends
    before the next one starts. -/
theorem ordered {p : Position} {cs : List Char} {ts : List Token} (h : Trace file p cs ts)
    (hfit : p.offset + Utf8.size cs < Position.offsetRange) :
    (∀ t ∈ ts, p.offset ≤ t.span.start.offset) ∧
      ts.Pairwise (fun t u => t.span.stop.offset ≤ u.span.start.offset) := by
  induction h with
  | done => simp
  | @skip p c cs ts _ _ ih =>
    rw [Utf8.size_cons] at hfit
    have hadv := Position.advance_offset_eq p c (by omega)
    obtain ⟨hlow, hpair⟩ := ih (by omega)
    exact ⟨fun t ht => by have := hlow t ht; omega, hpair⟩
  | @token p c cs ts kind n hn _ _ ih =>
    have hsplit := List.take_append_drop n (c :: cs)
    have hsize : Utf8.size ((c :: cs).take n) + Utf8.size ((c :: cs).drop n) =
        Utf8.size (c :: cs) := by
      rw [← Utf8.size_append, hsplit]
    have hadv := Position.advanceList_offset_eq p ((c :: cs).take n) (by omega)
    obtain ⟨hlow, hpair⟩ := ih (by omega)
    refine ⟨?_, List.Pairwise.cons ?_ hpair⟩
    · intro t ht
      rcases List.mem_cons.1 ht with rfl | ht
      · exact Nat.le_refl _
      · have := hlow t ht; omega
    · intro u hu
      exact hlow u hu

/-- A character that no token's span covers is one the dispatch skipped. -/
theorem uncovered_skipped {p : Position} {cs : List Char} {ts : List Token}
    (h : Trace file p cs ts) (hfit : p.offset + Utf8.size cs < Position.offsetRange)
    {a b : List Char} {c : Char} (hcs : cs = a ++ c :: b)
    (hout : ∀ t ∈ ts,
      ¬ (t.span.start.offset ≤ p.offset + Utf8.size a ∧
        p.offset + Utf8.size a < t.span.stop.offset)) :
    opensLexeme c = false := by
  induction h generalizing a with
  | done => simp at hcs
  | @skip p c' cs ts hstep _ ih =>
    cases a with
    | nil =>
      cases hcs
      exact (step_eq_skip_iff c b).1 hstep
    | cons c'' a =>
      cases hcs
      rw [Utf8.size_cons] at hfit
      have hadv := Position.advance_offset_eq p c' (by omega)
      refine ih (by omega) rfl fun t ht => ?_
      rw [hadv]
      have := hout t ht
      simp only [Utf8.size_cons] at this
      omega
  | @token p c' cs ts kind n hn _ _ ih =>
    have hsplit := List.take_append_drop n (c' :: cs)
    have hsize : Utf8.size ((c' :: cs).take n) + Utf8.size ((c' :: cs).drop n) =
        Utf8.size (c' :: cs) := by
      rw [← Utf8.size_append, hsplit]
    have hadv := Position.advanceList_offset_eq p ((c' :: cs).take n) (by omega)
    by_cases hin : a.length < n
    · -- the character lies inside the token's lexeme, which covers it
      exfalso
      obtain ⟨k, hk⟩ : ∃ k, n - a.length = k + 1 := ⟨n - a.length - 1, by omega⟩
      have hlex : (c' :: cs).take n = a ++ c :: b.take k := by
        rw [hcs, List.take_append, List.take_of_length_le (by omega), hk, List.take_succ_cons]
      have hc := c.utf8Size_pos
      apply hout _ List.mem_cons_self
      simp only [Token.make, Span.covering]
      rw [hadv, hlex, Utf8.size_append, Utf8.size_cons]
      omega
    · -- the character lies after the lexeme, in what the rest of the derivation reads
      have hdrop : (c' :: cs).drop n = a.drop n ++ c :: b := by
        rw [hcs, List.drop_append_of_le_length (by omega)]
      have htake : a = (c' :: cs).take n ++ a.drop n := by
        rw [hcs, List.take_append_of_le_length (by omega), List.take_append_drop]
      refine ih (by omega) hdrop fun t ht => ?_
      rw [hadv]
      have := hout t (List.mem_cons_of_mem _ ht)
      rw [htake, Utf8.size_append] at this
      omega

end Trace

end Lexer

/-- A successful lexing pass tiles its source: every token is the non-empty text between its
    span's byte offsets and is located at its span's start, consecutive tokens do not overlap,
    and a character outside every token is one the dispatch skips — no ASCII letter or digit,
    none of `/ { } ( ) [ ] ; * = ! < > | & + -` and no double quote. -/
theorem tokenize_tiles {pr : LexicalPreferences} {source file : String} {r : Lexed}
    (hfit : Utf8.size source.toList < Position.offsetRange)
    (h : tokenize pr source file = .ok r) :
    (∀ t ∈ r.tokens, t.text ≠ "" ∧
      Utf8.slice? source.toList t.span.start.offset t.span.stop.offset = some t.text.toList ∧
      t.location = ⟨file, t.span.start.line, t.span.start.column⟩) ∧
    (∀ i (hi : i + 1 < r.tokens.length),
      r.tokens[i].span.stop.offset ≤ r.tokens[i + 1].span.start.offset) ∧
    (∀ pre c post, source.toList = pre ++ c :: post →
      (∀ t ∈ r.tokens,
        ¬ (t.span.start.offset ≤ Utf8.size pre ∧ Utf8.size pre < t.span.stop.offset)) →
      c.isAlpha = false ∧ c.isDigit = false ∧
        c ∉ ['/', '{', '}', '(', ')', '[', ']', ';', '*', '=', '!', '<', '>', '|', '&', '+', '-',
          '"']) := by
  have htrace := Lexer.tokenize_trace h
  have hfit' : Position.start.offset + Utf8.size source.toList < Position.offsetRange := by
    simpa [Position.start] using hfit
  refine ⟨fun t ht => htrace.token_reads hfit ht, fun i hi => ?_, fun pre c post hsrc hout => ?_⟩
  · have hpair := List.pairwise_iff_getElem.1 (htrace.ordered hfit').2
    exact hpair i (i + 1) (by omega) hi (Nat.lt_succ_self i)
  · have hskip := htrace.uncovered_skipped hfit' hsrc (by simpa [Position.start] using hout)
    simpa [Lexer.opensLexeme, and_assoc] using hskip

/-- A declaration with a skipped underscore and a trailing line comment is tiled. -/
theorem tokenize_tiles_declaration :
    ∃ r, Utf8.size "int _x=1; // c\n".toList < Position.offsetRange ∧
      tokenize {} "int _x=1; // c\n" "f.c" = .ok r ∧
      (∀ t ∈ r.tokens, t.text ≠ "" ∧
        Utf8.slice? "int _x=1; // c\n".toList t.span.start.offset t.span.stop.offset =
          some t.text.toList ∧
        t.location = ⟨"f.c", t.span.start.line, t.span.start.column⟩) ∧
      (∀ i (hi : i + 1 < r.tokens.length),
        r.tokens[i].span.stop.offset ≤ r.tokens[i + 1].span.start.offset) ∧
      (∀ pre c post, "int _x=1; // c\n".toList = pre ++ c :: post →
        (∀ t ∈ r.tokens,
          ¬ (t.span.start.offset ≤ Utf8.size pre ∧ Utf8.size pre < t.span.stop.offset)) →
        c.isAlpha = false ∧ c.isDigit = false ∧
          c ∉ ['/', '{', '}', '(', ')', '[', ']', ';', '*', '=', '!', '<', '>', '|', '&', '+',
            '-', '"']) := by
  have hfit : Utf8.size "int _x=1; // c\n".toList < Position.offsetRange := by decide
  have hok : (tokenize {} "int _x=1; // c\n" "f.c").toBool = true := by decide +kernel
  cases h : tokenize {} "int _x=1; // c\n" "f.c" with
  | error e => simp [h, Except.toBool] at hok
  | ok r => exact ⟨r, hfit, rfl, tokenize_tiles hfit h⟩

end COutline
