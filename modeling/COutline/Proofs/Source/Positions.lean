import Mathlib.Data.List.Induction
import COutline.Source.Map
import COutline.Proofs.Lexer.Tiling

/-!
# Positions of byte offsets

A source map places a byte offset by a bisection search of its line starts and a count of the
characters from the line's start (`SourceMap.positionAt`), while the lexer carries a position
along as it reads (`Position.advance`).  The two agree.

The search answers `.ok i` only at an entry equal to the key (`binarySearch_eq_ok`) and
`.error i` only at the place that separates the entries below the key from those above it
(`binarySearch_eq_error`, from the invariant `Bracketed` that every bisection step keeps).  The
line starts are ascending, one past each line feed (`lineStarts_toList`), so the line found for
an offset is the last line start at or before it (`lineIndex_eq`).  At an offset between two
characters that is the line after the line feeds read, and the characters from its start are
those read since the last of them (`SourceMap.positionAt_append`): the place reached by reading
the text before the offset (`Position.start_advanceList`).  Every span the lexer reports, of a
token or of a fault, covers characters read from the start of the text, so both of its ends are
placed alike (`SourceMap.positionAt_agrees_with_reading`).
-/

namespace COutline

namespace Utf8

/-- The byte size of a text is the byte size of its characters. -/
theorem size_ofList (cs : List Char) : (String.ofList cs).utf8ByteSize = size cs := by
  induction cs with
  | nil => simp
  | cons c cs ih => simp [ih]

theorem size_toList (s : String) : size s.toList = s.utf8ByteSize := by
  rw [← size_ofList, String.ofList_toList]

end Utf8

namespace SourceMap

/-- Line and column after reading `c` at `lc`, with counters that never wrap. -/
def nextLineColumn (lc : Nat × Nat) (c : Char) : Nat × Nat :=
  if c = '\n' then (lc.1 + 1, 1) else (lc.1, lc.2 + 1)

/-- From the first line and column, the line is one more than the line feeds read and the
    column one more than the characters read since the last of them. -/
theorem foldl_nextLineColumn (cs : List Char) :
    cs.foldl nextLineColumn (1, 1) =
      (1 + cs.count '\n', 1 + (cs.reverse.takeWhile (· != '\n')).length) := by
  induction cs using List.reverseRecOn with
  | nil => rfl
  | append_singleton cs c ih =>
    rw [List.foldl_append, ih]
    by_cases hnl : c = '\n'
    · subst hnl
      simp [nextLineColumn]
      omega
    · simp [nextLineColumn, hnl]
      omega

end SourceMap

namespace Position

open SourceMap (nextLineColumn)

/-- One character moves line and column as the unbounded counters move, modulo their range. -/
theorem advance_lineColumn (p : Position) (c : Char) (lc : Nat × Nat)
    (hl : p.line = lc.1 % lineRange) (hc : p.column = lc.2 % lineRange) :
    (p.advance c).line = (nextLineColumn lc c).1 % lineRange ∧
      (p.advance c).column = (nextLineColumn lc c).2 % lineRange := by
  unfold advance nextLineColumn
  by_cases hnl : c = '\n'
  · rw [if_pos hnl, if_pos hnl, hl]
    exact ⟨Nat.mod_add_mod _ _ _, (Nat.mod_eq_of_lt (show 1 < lineRange by decide)).symm⟩
  · rw [if_neg hnl, if_neg hnl, hl, hc]
    exact ⟨rfl, Nat.mod_add_mod _ _ _⟩

/-- Reading a text moves line and column as the unbounded counters move, modulo their range. -/
theorem advanceList_lineColumn (p : Position) (cs : List Char) (lc : Nat × Nat)
    (hl : p.line = lc.1 % lineRange) (hc : p.column = lc.2 % lineRange) :
    (p.advanceList cs).line = (cs.foldl nextLineColumn lc).1 % lineRange ∧
      (p.advanceList cs).column = (cs.foldl nextLineColumn lc).2 % lineRange := by
  induction cs generalizing p lc with
  | nil => exact ⟨hl, hc⟩
  | cons c cs ih =>
    obtain ⟨hl', hc'⟩ := advance_lineColumn p c lc hl hc
    exact ih (p.advance c) (nextLineColumn lc c) hl' hc'

/-- The place reached from the start of a text: its byte size, one line more than its line
    feeds, one column more than the characters after its last line feed. -/
theorem start_advanceList (cs : List Char) (h : Utf8.size cs < offsetRange) :
    start.advanceList cs = ⟨Utf8.size cs, (1 + cs.count '\n') % lineRange,
      (1 + (cs.reverse.takeWhile (· != '\n')).length) % lineRange⟩ := by
  obtain ⟨hl, hc⟩ := advanceList_lineColumn start cs (1, 1) rfl rfl
  rw [SourceMap.foldl_nextLineColumn] at hl hc
  rw [← start_advanceList_offset cs h, ← hl, ← hc]

end Position

/-! ## Bisection search -/

section Search

variable {xs : Array Nat} {key : Nat}

/-- The search interval `[lo, hi)` brackets `key` in `xs`: every entry before `lo` is below it
    and every entry from `hi` on is above it. -/
def Bracketed (xs : Array Nat) (key lo hi : Nat) : Prop :=
  lo ≤ hi ∧ hi ≤ xs.size ∧ (∀ j (h : j < xs.size), j < lo → xs[j] < key) ∧
    (∀ j (h : j < xs.size), hi ≤ j → key < xs[j])

theorem Bracketed.whole (xs : Array Nat) (key : Nat) : Bracketed xs key 0 xs.size :=
  ⟨Nat.zero_le _, Nat.le_refl _, fun _ _ h => absurd h (Nat.not_lt_zero _),
    fun _ h h' => absurd h (Nat.not_lt_of_le h')⟩

theorem ascending_lt (hs : xs.toList.Pairwise (· < ·)) {i j : Nat} (hi : i < xs.size)
    (hj : j < xs.size) (hij : i < j) : xs[i] < xs[j] := by
  have := List.pairwise_iff_getElem.1 hs i j (by simpa using hi) (by simpa using hj) hij
  rwa [Array.getElem_toList, Array.getElem_toList] at this

theorem ascending_le (hs : xs.toList.Pairwise (· < ·)) {i j : Nat} (hij : i ≤ j)
    (hj : j < xs.size) : xs[i] ≤ xs[j] := by
  rcases Nat.lt_or_eq_of_le hij with h | rfl
  · exact Nat.le_of_lt (ascending_lt hs (by omega) hj h)
  · exact Nat.le_refl _

/-- An entry below the key moves the bracket past it. -/
theorem Bracketed.above (hs : xs.toList.Pairwise (· < ·)) {lo hi mid : Nat}
    (h : Bracketed xs key lo hi) (hmid : mid < hi) (hmid' : mid < xs.size)
    (hlt : xs[mid] < key) : Bracketed xs key (mid + 1) hi := by
  obtain ⟨-, hhi, hbelow, habove⟩ := h
  refine ⟨by omega, hhi, fun j hj hjm => ?_, habove⟩
  exact Nat.lt_of_le_of_lt (ascending_le hs (by omega) hmid') hlt

/-- An entry above the key moves the bracket's end down to it. -/
theorem Bracketed.below (hs : xs.toList.Pairwise (· < ·)) {lo hi mid : Nat}
    (h : Bracketed xs key lo hi) (hlo : lo ≤ mid) (hmid' : mid < xs.size)
    (hgt : key < xs[mid]) : Bracketed xs key lo mid := by
  obtain ⟨-, -, hbelow, habove⟩ := h
  refine ⟨hlo, by omega, hbelow, fun j hj hmj => ?_⟩
  exact Nat.lt_of_lt_of_le hgt (ascending_le hs hmj hj)

/-- A search that finds the key finds it at the index it answers. -/
theorem binarySearch_loop_ok {lo hi : Nat} {hhi : hi ≤ xs.size} {i : Nat}
    (h : binarySearch.loop xs key lo hi hhi = .ok i) : ∃ hlt : i < xs.size, xs[i] = key := by
  fun_induction binarySearch.loop xs key lo hi hhi with
  | case1 lo hi hhi hlt mid hmid hless ih => exact ih h
  | case2 lo hi hhi hlt mid hmid hless hmore ih => exact ih h
  | case3 lo hi hhi hlt mid hmid hless hmore =>
    simp only [Except.ok.injEq] at h
    subst h
    exact ⟨hmid, by omega⟩
  | case4 lo hi hhi hlt => cases h

/-- On an ascending array, a search that does not find the key stops where the bracket has
    closed: the entries before that place are below the key and the others above it. -/
theorem binarySearch_loop_error (hs : xs.toList.Pairwise (· < ·)) {lo hi : Nat}
    {hhi : hi ≤ xs.size} (hb : Bracketed xs key lo hi) {i : Nat}
    (h : binarySearch.loop xs key lo hi hhi = .error i) : Bracketed xs key i i := by
  fun_induction binarySearch.loop xs key lo hi hhi with
  | case1 lo hi hhi hlt mid hmid hless ih =>
    exact ih (hb.above hs (by omega) hmid hless) h
  | case2 lo hi hhi hlt mid hmid hless hmore ih =>
    exact ih (hb.below hs (by omega) hmid (by omega)) h
  | case3 lo hi hhi hlt mid hmid hless hmore => cases h
  | case4 lo hi hhi hlt =>
    cases h
    -- the bracket is empty: `lo = hi`
    obtain ⟨hle, hhi', hbelow, habove⟩ := hb
    exact ⟨Nat.le_refl _, by omega, hbelow, fun j hj hij => habove j hj (by omega)⟩

theorem binarySearch_eq_ok {i : Nat} (h : binarySearch xs key = .ok i) :
    ∃ hlt : i < xs.size, xs[i] = key :=
  binarySearch_loop_ok h

theorem binarySearch_eq_error (hs : xs.toList.Pairwise (· < ·)) {i : Nat}
    (h : binarySearch xs key = .error i) : Bracketed xs key i i :=
  binarySearch_loop_error hs (Bracketed.whole xs key) h

end Search

/-! ## The line index -/

namespace SourceMap

/-- One past every line feed of `cs`, whose first character is at byte `offset`: what
    `lineStartsFrom` adds, as a list. -/
def lineBreaks : List Char → Nat → List Nat
  | [], _ => []
  | c :: cs, offset =>
    if c = '\n' then (offset + 1) :: lineBreaks cs (offset + c.utf8Size)
    else lineBreaks cs (offset + c.utf8Size)

theorem lineStartsFrom_toList (cs : List Char) (offset : Nat) (starts : Array Nat) :
    (lineStartsFrom cs offset starts).toList = starts.toList ++ lineBreaks cs offset := by
  induction cs generalizing offset starts with
  | nil => simp [lineStartsFrom, lineBreaks]
  | cons c cs ih =>
    rw [lineStartsFrom, ih, lineBreaks]
    by_cases hnl : c = '\n' <;> simp [hnl]

/-- The lines start at 0 and one past every line feed. -/
theorem lineStarts_toList (m : SourceMap) :
    m.lineStarts.toList = 0 :: lineBreaks m.source.toList 0 := by
  rw [m.lineStarts_eq, lineStartsOf, lineStartsFrom_toList]
  rfl

theorem lineBreaks_append (a b : List Char) (offset : Nat) :
    lineBreaks (a ++ b) offset = lineBreaks a offset ++ lineBreaks b (offset + Utf8.size a) := by
  induction a generalizing offset with
  | nil => simp [lineBreaks]
  | cons c a ih => by_cases hnl : c = '\n' <;> simp [lineBreaks, ih, hnl, Nat.add_assoc]

theorem lineBreaks_eq_nil {cs : List Char} (h : '\n' ∉ cs) (offset : Nat) :
    lineBreaks cs offset = [] := by
  induction cs generalizing offset with
  | nil => rfl
  | cons c cs ih =>
    rw [List.mem_cons, not_or] at h
    rw [lineBreaks, if_neg (Ne.symm h.1), ih h.2]

theorem lt_of_mem_lineBreaks {cs : List Char} {offset x : Nat} (h : x ∈ lineBreaks cs offset) :
    offset < x := by
  induction cs generalizing offset with
  | nil => cases h
  | cons c cs ih =>
    have hpos := c.utf8Size_pos
    rw [lineBreaks] at h
    split at h
    · rcases List.mem_cons.1 h with rfl | h
      · omega
      · have := ih h
        omega
    · have := ih h
      omega

theorem pairwise_lineBreaks (cs : List Char) (offset : Nat) :
    (lineBreaks cs offset).Pairwise (· < ·) := by
  induction cs generalizing offset with
  | nil => exact List.Pairwise.nil
  | cons c cs ih =>
    rw [lineBreaks]
    split
    · -- every later start lies past this line feed
      refine List.Pairwise.cons (fun x hx => ?_) (ih _)
      have := lt_of_mem_lineBreaks hx
      have := c.utf8Size_pos
      omega
    · exact ih _

theorem length_lineBreaks (cs : List Char) (offset : Nat) :
    (lineBreaks cs offset).length = cs.count '\n' := by
  induction cs generalizing offset with
  | nil => rfl
  | cons c cs ih =>
    rw [lineBreaks, List.count_cons]
    by_cases hnl : c = '\n' <;> simp [hnl, ih]

/-- The line starts strictly increase. -/
theorem lineStarts_ascending (m : SourceMap) : m.lineStarts.toList.Pairwise (· < ·) := by
  rw [lineStarts_toList]
  exact List.Pairwise.cons (fun x hx => lt_of_mem_lineBreaks hx) (pairwise_lineBreaks _ 0)

/-- There is one line more than there are line feeds. -/
theorem lineCount_eq (m : SourceMap) : m.lineCount = 1 + m.source.toList.count '\n' := by
  rw [lineCount, ← Array.length_toList, lineStarts_toList, List.length_cons, length_lineBreaks,
    Nat.add_comm]

/-- The line found for `offset` is the one whose start is the last at or before it. -/
theorem lineIndex_eq (m : SourceMap) {offset k : Nat} (hk : k < m.lineStarts.size)
    (hle : m.lineStarts[k] ≤ offset)
    (hgt : ∀ j (hj : j < m.lineStarts.size), k < j → offset < m.lineStarts[j]) :
    m.lineIndex offset = k := by
  have hs := m.lineStarts_ascending
  unfold lineIndex
  split
  · next i hi =>
    -- a start equal to the offset: an earlier one would be below start `k`, a later one above
    obtain ⟨hi', heq⟩ := binarySearch_eq_ok hi
    rcases Nat.lt_trichotomy i k with hik | rfl | hki
    · have := ascending_lt hs hi' hk hik
      omega
    · rfl
    · have := hgt i hi' hki
      omega
  · next i hi =>
    -- the place `offset` would go is just after start `k`
    obtain ⟨-, hsize, hbelow, habove⟩ := binarySearch_eq_error hs hi
    have hki : k < i := by
      by_contra hik
      have := habove k hk (by omega)
      omega
    have hik : i ≤ k + 1 := by
      by_contra hik
      have := hbelow (k + 1) (by omega) (by omega)
      have := hgt (k + 1) (by omega) (Nat.lt_succ_self k)
      omega
    omega

end SourceMap

/-- A character list splits after its last line feed: what precedes is empty or ends in a line
    feed, what follows has none. -/
theorem List.exists_lastLine (pre : List Char) :
    ∃ a b, pre = a ++ b ∧ '\n' ∉ b ∧ (a = [] ∨ ∃ a', a = a' ++ ['\n']) ∧
      b.length = (pre.reverse.takeWhile (· != '\n')).length := by
  induction pre using List.reverseRecOn with
  | nil => exact ⟨[], [], rfl, List.not_mem_nil, Or.inl rfl, rfl⟩
  | append_singleton pre c ih =>
    by_cases hnl : c = '\n'
    · subst hnl
      exact ⟨pre ++ ['\n'], [], (List.append_nil _).symm, List.not_mem_nil, Or.inr ⟨pre, rfl⟩,
        by simp⟩
    · obtain ⟨a, b, rfl, hb, ha, hlen⟩ := ih
      refine ⟨a, b ++ [c], by simp, ?_, ha, ?_⟩
      · simp [hb, Ne.symm hnl]
      · simp [hnl, hlen]

namespace SourceMap

/-- The line starts up to the end of `a`, a text empty or ending in a line feed, end at its byte
    size, after one start for each of its line feeds. -/
theorem lineStarts_prefix {a : List Char} (ha : a = [] ∨ ∃ a', a = a' ++ ['\n']) :
    ∃ front, 0 :: lineBreaks a 0 = front ++ [Utf8.size a] ∧ front.length = a.count '\n' := by
  rcases ha with rfl | ⟨a', rfl⟩
  · exact ⟨[], rfl, rfl⟩
  · refine ⟨0 :: lineBreaks a' 0, ?_, ?_⟩
    · have hnl : '\n'.utf8Size = 1 := rfl
      simp [lineBreaks_append, lineBreaks, hnl]
    · simp [length_lineBreaks]

/-- When the line starts are `front`, then `s` at or before `offset`, then starts past it, the
    line of `offset` is the one that starts at `s`. -/
theorem lineIndex_of_toList (m : SourceMap) {offset s : Nat} {front back : List Nat}
    (hstarts : m.lineStarts.toList = front ++ s :: back) (hs : s ≤ offset)
    (hback : ∀ x ∈ back, offset < x) :
    m.lineIndex offset = front.length ∧ m.lineStarts[front.length]? = some s := by
  have hk : front.length < m.lineStarts.size := by
    rw [← Array.length_toList, hstarts]
    simp
  have hat : m.lineStarts[front.length] = s := by
    rw [← Array.getElem_toList, List.getElem_of_eq hstarts]
    simp
  refine ⟨lineIndex_eq m hk (hat ▸ hs) fun j hj hkj => ?_,
    by rw [getElem?_pos m.lineStarts front.length hk, hat]⟩
  -- a later start is one of `back`
  rw [← Array.getElem_toList, List.getElem_of_eq hstarts, List.getElem_append_right (by omega)]
  obtain ⟨i, hi⟩ : ∃ i, j - front.length = i + 1 := ⟨j - front.length - 1, by omega⟩
  simp only [hi, List.getElem_cons_succ]
  exact hback _ (List.getElem_mem _)

/-- At a byte offset between two characters, the source map gives one line more than the line
    feeds before it and one column more than the characters since the last of them. -/
theorem positionAt_append (m : SourceMap) {pre post : List Char}
    (hsrc : m.source.toList = pre ++ post) :
    m.positionAt (Utf8.size pre) = ⟨Utf8.size pre, (1 + pre.count '\n') % Position.lineRange,
      (1 + (pre.reverse.takeWhile (· != '\n')).length) % Position.lineRange⟩ := by
  obtain ⟨a, b, rfl, hb, ha, hlen⟩ := List.exists_lastLine pre
  obtain ⟨front, hfront, hcount⟩ := lineStarts_prefix ha
  -- the starts of `a`'s lines, the last at its end, then those past the offset
  have hstarts : m.lineStarts.toList =
      front ++ Utf8.size a :: lineBreaks post (Utf8.size a + Utf8.size b) := by
    rw [lineStarts_toList, hsrc, lineBreaks_append, lineBreaks_append, lineBreaks_eq_nil hb,
      List.append_nil, ← List.cons_append, hfront]
    simp
  have hle : Utf8.size a ≤ Utf8.size (a ++ b) := by
    rw [Utf8.size_append]
    omega
  have hback : ∀ x ∈ lineBreaks post (Utf8.size a + Utf8.size b), Utf8.size (a ++ b) < x :=
    fun x hx => by
      have := lt_of_mem_lineBreaks hx
      rw [Utf8.size_append]
      omega
  obtain ⟨hline, hstart⟩ := lineIndex_of_toList m hstarts hle hback
  have hclamp : min (Utf8.size (a ++ b)) m.source.utf8ByteSize = Utf8.size (a ++ b) := by
    rw [← Utf8.size_toList, hsrc]
    simp
  have hslice : Utf8.slice? m.source.toList (Utf8.size a) (Utf8.size (a ++ b)) = some b := by
    rw [hsrc, Utf8.size_append]
    exact Utf8.slice?_append a b post
  simp only [positionAt, hclamp, hline, hstart, Option.getD_some, hslice, Option.map_some]
  rw [List.count_append, List.count_eq_zero.2 hb, hcount, hlen]
  congr 2 <;> omega

example : (SourceMap.new "f.c" "a\r\nbc").positionAt 2 = ⟨2, 1, 3⟩ := by decide +kernel

/-- At a byte offset between two characters, the source map gives the place reached by reading
    the text before it. -/
theorem positionAt_eq_advanceList (m : SourceMap) {pre post : List Char}
    (hsrc : m.source.toList = pre ++ post)
    (hfit : Utf8.size m.source.toList < Position.offsetRange) :
    m.positionAt (Utf8.size pre) = Position.start.advanceList pre := by
  have hpre : Utf8.size pre < Position.offsetRange := by
    rw [hsrc, Utf8.size_append] at hfit
    omega
  rw [Position.start_advanceList pre hpre]
  exact positionAt_append m hsrc

/-- Both ends of the span of characters `l`, read after `a` from the start of the text, are
    where the source map places their offsets. -/
theorem positionAt_covering (m : SourceMap) {a l rest : List Char}
    (hsrc : m.source.toList = a ++ l ++ rest)
    (hfit : Utf8.size m.source.toList < Position.offsetRange) :
    m.positionAt (Span.covering (Position.start.advanceList a) l).start.offset =
        (Span.covering (Position.start.advanceList a) l).start ∧
      m.positionAt (Span.covering (Position.start.advanceList a) l).stop.offset =
        (Span.covering (Position.start.advanceList a) l).stop := by
  have hsize : Utf8.size (a ++ l) < Position.offsetRange := by
    rw [hsrc, Utf8.size_append] at hfit
    omega
  have hstart : m.positionAt (Utf8.size a) = Position.start.advanceList a :=
    positionAt_eq_advanceList m (by rw [hsrc, List.append_assoc]) hfit
  have hstop : m.positionAt (Utf8.size (a ++ l)) = Position.start.advanceList (a ++ l) :=
    positionAt_eq_advanceList m hsrc hfit
  simp only [Span.covering]
  rw [← Position.advanceList_append, Position.start_advanceList_offset a (by
    rw [Utf8.size_append] at hsize; omega), Position.start_advanceList_offset _ hsize]
  exact ⟨hstart, hstop⟩

end SourceMap

namespace Lexer

/-- A fault is placed over exactly the characters it was found in. -/
theorem place_span (f : Fault) (file : String) (pos : Position) (lexeme : List Char) :
    (place f file pos lexeme).span = Span.covering pos lexeme := by
  cases f <;> rfl

/-- A failing run reports the span of characters of the text it reads, from the place reached
    after the characters before them. -/
theorem run_error_span {pr : LexicalPreferences} {file : String} {cs : List Char} {s : Scanner}
    {e : LexError} (h : run pr file cs s = .error e) :
    ∃ a l rest, cs = a ++ l ++ rest ∧ e.span = Span.covering (s.pos.advanceList a) l := by
  fun_induction run pr file cs s with
  | case1 s => cases h
  | case2 s c rest hstep ih =>
    obtain ⟨a, l, rest', hsplit, hspan⟩ := ih h
    exact ⟨c :: a, l, rest', by rw [hsplit]; rfl, hspan⟩
  | case3 s c rest kind n hn hstep lexeme span tok counts counted hover =>
    cases h
    exact ⟨[], lexeme, (c :: rest).drop n, by simp [lexeme], rfl⟩
  | case4 s c rest kind n hn hstep lexeme span tok counts counted hover ih =>
    obtain ⟨a, l, rest', hsplit, hspan⟩ := ih h
    refine ⟨lexeme ++ a, l, rest', ?_, ?_⟩
    · rw [List.append_assoc, List.append_assoc, ← List.append_assoc a, ← hsplit,
        List.take_append_drop]
    · rw [hspan, Position.advanceList_append]
      rfl
  | case5 s c rest f n hstep =>
    cases h
    exact ⟨[], (c :: rest).take n, (c :: rest).drop n, by simp, place_span _ _ _ _⟩

/-- A failing lexing pass is a failing run from the start of the text. -/
theorem tokenize_error_run {pr : LexicalPreferences} {source file : String} {e : LexError}
    (h : tokenize pr source file = .error e) :
    run pr file source.toList ⟨Position.start, #[], 0, {}⟩ = .error e := by
  unfold tokenize at h
  split at h
  · next e' hrun =>
    cases h
    exact hrun
  · cases h

end Lexer

end COutline
