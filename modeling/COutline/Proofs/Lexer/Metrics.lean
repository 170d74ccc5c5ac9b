import COutline.Proofs.Data.SortedMap
import COutline.Proofs.Lexer.Blanking
import COutline.Proofs.Lexer.Faults

/-!
# The metrics of a lexing pass

A pass counts as it goes: each token it takes is recorded (`LexMetrics.record`) and each
character it skips is counted (`LexMetrics.skip`).  The two touch different fields, so the
metrics of a successful pass are those of its tokens recorded in order, then of its skipped
characters counted (`Trace.run_pos_metrics`).  Read field by field, they agree with the token
list and the text (`tokenize_metrics`): the number of tokens, the occurrences of each kind, the
comments, the lines (a 32-bit count, as the position counts them, so that a text of `2 ^ 32`
line feeds reports none: `tokenize_lineCount_wraps`), and — with detailed metrics — the
characters no token covers and the byte size of the longest identifier, string literal and
comment.
-/

namespace COutline

namespace TokenKind

/-- Kinds compare by their place in the declaration. -/
theorem compare_eq_compare_index (a b : TokenKind) : compare a b = compare a.index b.index := rfl

instance : Std.TransOrd TokenKind := by
  have h : (compare : TokenKind → TokenKind → Ordering) = compareOn index :=
    funext fun a => funext fun b => compare_eq_compare_index a b
  show Std.TransCmp compare
  rw [h]
  infer_instance

theorem compare_eq_eq_iff {a b : TokenKind} : compare a b = .eq ↔ a = b := by
  rw [compare_eq_compare_index, Std.LawfulEqOrd.compare_eq_iff_eq]
  cases a <;> cases b <;> simp [index]

end TokenKind

/-- The characters the texts of `ts` take, all together. -/
def textLength (ts : List Token) : Nat := ts.foldr (fun t n => t.text.length + n) 0

@[simp] theorem textLength_nil : textLength [] = 0 := rfl

@[simp] theorem textLength_cons (t : Token) (ts : List Token) :
    textLength (t :: ts) = t.text.length + textLength ts := rfl

/-- The byte size of the longest text of a token of kind `k` among `ts`, or `0` when none has
    that kind. -/
def largestText (ts : List Token) (k : TokenKind) : Nat :=
  ((ts.filter (·.kind == k)).map (·.text.utf8ByteSize)).foldr max 0

theorem largestText_cons (t : Token) (ts : List Token) (k : TokenKind) :
    largestText (t :: ts) k =
      if t.kind = k then max t.text.utf8ByteSize (largestText ts k) else largestText ts k := by
  unfold largestText
  by_cases hk : t.kind = k <;> simp [hk]

namespace LexMetrics

variable {pr : LexicalPreferences} {m : LexMetrics} {t : Token}

/-! ## What one step counts -/

/-- Skipping a character counts it, with detailed metrics, and changes nothing else. -/
@[simp] theorem skip_eq : m.skip pr =
    { m with skippedChars := m.skippedChars + if pr.collectDetailedMetrics then 1 else 0 } := by
  unfold skip
  split <;> simp [*]

-- `record` sets the counts for every token and, with detailed metrics, the largest size of the
-- token's own kind: each field is read off by splitting on the preference and the kind.

@[simp] theorem record_totalTokens : (m.record pr t).totalTokens = m.totalTokens + 1 := by
  unfold record
  cases pr.collectDetailedMetrics <;> cases t.kind <;> simp

@[simp] theorem record_tokensByKind :
    (m.record pr t).tokensByKind = m.tokensByKind.modify t.kind 0 (· + 1) := by
  unfold record
  cases pr.collectDetailedMetrics <;> cases t.kind <;> simp

@[simp] theorem record_commentCount :
    (m.record pr t).commentCount = m.commentCount + if t.kind = .comment then 1 else 0 := by
  unfold record
  cases pr.collectDetailedMetrics <;> cases t.kind <;> simp

@[simp] theorem record_lineCount : (m.record pr t).lineCount = m.lineCount := by
  unfold record
  cases pr.collectDetailedMetrics <;> cases t.kind <;> simp

@[simp] theorem record_skippedChars : (m.record pr t).skippedChars = m.skippedChars := by
  unfold record
  cases pr.collectDetailedMetrics <;> cases t.kind <;> simp

@[simp] theorem record_maxIdentifierLength :
    (m.record pr t).maxIdentifierLength =
      if pr.collectDetailedMetrics = true ∧ t.kind = .identifier then
        max m.maxIdentifierLength t.text.utf8ByteSize
      else m.maxIdentifierLength := by
  unfold record
  cases pr.collectDetailedMetrics <;> cases t.kind <;> simp

@[simp] theorem record_maxStringLength :
    (m.record pr t).maxStringLength =
      if pr.collectDetailedMetrics = true ∧ t.kind = .stringLiteral then
        max m.maxStringLength t.text.utf8ByteSize
      else m.maxStringLength := by
  unfold record
  cases pr.collectDetailedMetrics <;> cases t.kind <;> simp

@[simp] theorem record_maxCommentLength :
    (m.record pr t).maxCommentLength =
      if pr.collectDetailedMetrics = true ∧ t.kind = .comment then
        max m.maxCommentLength t.text.utf8ByteSize
      else m.maxCommentLength := by
  unfold record
  cases pr.collectDetailedMetrics <;> cases t.kind <;> simp

attribute [ext] LexMetrics

/-- Recording a token and skipping a character touch different fields, so they commute. -/
theorem record_skip : (m.skip pr).record pr t = (m.record pr t).skip pr := by
  ext <;> simp

/-- Skipping `k` characters counts them, with detailed metrics. -/
theorem skip_iterate (k : Nat) : (skip pr)^[k] m =
    { m with skippedChars := m.skippedChars + if pr.collectDetailedMetrics then k else 0 } := by
  induction k with
  | zero => simp
  | succ k ih =>
    rw [Function.iterate_succ_apply', ih, skip_eq]
    cases pr.collectDetailedMetrics <;> simp [Nat.add_assoc]

/-! ## What a pass counts -/

section Pass

variable (ts : List Token)

theorem foldl_record_skip (m : LexMetrics) :
    ts.foldl (record pr) (m.skip pr) = (ts.foldl (record pr) m).skip pr := by
  induction ts generalizing m with
  | nil => rfl
  | cons t ts ih => rw [List.foldl_cons, List.foldl_cons, record_skip, ih]

@[simp] theorem foldl_record_totalTokens (m : LexMetrics) :
    (ts.foldl (record pr) m).totalTokens = m.totalTokens + ts.length := by
  induction ts generalizing m with
  | nil => rfl
  | cons t ts ih =>
    rw [List.foldl_cons, ih, record_totalTokens, List.length_cons]
    omega

@[simp] theorem foldl_record_commentCount (m : LexMetrics) :
    (ts.foldl (record pr) m).commentCount = m.commentCount + ts.countP (·.kind == .comment) := by
  induction ts generalizing m with
  | nil => rfl
  | cons t ts ih =>
    rw [List.foldl_cons, ih, record_commentCount, List.countP_cons]
    by_cases hk : t.kind = .comment
    · simp [hk]
      omega
    · simp [hk]

@[simp] theorem foldl_record_skippedChars (m : LexMetrics) :
    (ts.foldl (record pr) m).skippedChars = m.skippedChars := by
  induction ts generalizing m with
  | nil => rfl
  | cons t ts ih => rw [List.foldl_cons, ih, record_skippedChars]

/-- A kind is in the map once a token of it was recorded, with the count of such tokens added
    to what the map held. -/
theorem foldl_record_get? (k : TokenKind) (m : LexMetrics) :
    (ts.foldl (record pr) m).tokensByKind.get? k =
      if ts.any (·.kind == k) then
        some ((m.tokensByKind.get? k).getD 0 + ts.countP (·.kind == k))
      else m.tokensByKind.get? k := by
  induction ts generalizing m with
  | nil => simp
  | cons t ts ih =>
    rw [List.foldl_cons, ih, record_tokensByKind, SortedMap.modify,
      SortedMap.get?_insert_of_trans]
    simp only [TokenKind.compare_eq_eq_iff]
    by_cases hk : t.kind = k
    · -- the head counts: whether or not a later token has the kind, the count is one more
      subst hk
      simp only [if_true, Option.getD_some, List.any_cons, beq_self_eq_true, Bool.true_or,
        List.countP_cons]
      by_cases hany : ts.any (·.kind == t.kind)
      · simp only [hany, if_true, Option.some.injEq]
        omega
      · have hnone : ts.countP (·.kind == t.kind) = 0 := by simpa [List.countP_eq_zero] using hany
        simp [hany, hnone]
    · have hk' : k ≠ t.kind := Ne.symm hk
      simp [hk, hk']

/-- A field that recording raises to the byte size of each token of kind `k`, with detailed
    metrics, ends at the largest such size of the tokens recorded. -/
theorem foldl_record_largest (f : LexMetrics → Nat) (k : TokenKind)
    (hf : ∀ m t, f (m.record pr t) =
      if pr.collectDetailedMetrics = true ∧ t.kind = k then max (f m) t.text.utf8ByteSize
      else f m)
    (m : LexMetrics) :
    f (ts.foldl (record pr) m) =
      if pr.collectDetailedMetrics then max (f m) (largestText ts k) else f m := by
  induction ts generalizing m with
  | nil => cases pr.collectDetailedMetrics <;> simp [largestText]
  | cons t ts ih =>
    rw [List.foldl_cons, ih, hf, largestText_cons]
    cases pr.collectDetailedMetrics <;> by_cases hk : t.kind = k <;> simp [hk]

end Pass

end LexMetrics

namespace Lexer

variable {pr : LexicalPreferences} {file : String}

/-- A derivation's tokens take no more characters than it reads. -/
theorem Trace.textLength_le {p : Position} {cs : List Char} {ts : List Token}
    (h : Trace file p cs ts) : textLength ts ≤ cs.length := by
  induction h with
  | done p => simp
  | skip _ _ ih => simp only [List.length_cons]; omega
  | @token p c cs ts kind n hn _ _ ih =>
    simp only [textLength_cons, Token.make, String.length_ofList, List.length_take,
      List.length_drop] at ih ⊢
    omega

/-- A successful run along a derivation ends where the text ends, with the derivation's tokens
    recorded in order and every character they leave skipped. -/
theorem Trace.run_pos_metrics {p : Position} {cs : List Char} {ts : List Token}
    (h : Trace file p cs ts) :
    ∀ s s' : Scanner, s.pos = p → run pr file cs s = .ok s' →
      s'.pos = p.advanceList cs ∧
      s'.metrics = (LexMetrics.skip pr)^[cs.length - textLength ts]
        (ts.foldl (LexMetrics.record pr) s.metrics) := by
  induction h with
  | done p =>
    intro s s' hpos hrun
    rw [run] at hrun
    cases hrun
    exact ⟨hpos, rfl⟩
  | @skip p c cs ts hstep htrace ih =>
    intro s s' hpos hrun
    rw [run, hstep] at hrun
    obtain ⟨hposs, hmetrics⟩ := ih _ s' (by rw [hpos]) hrun
    have hle := htrace.textLength_le
    refine ⟨hposs, ?_⟩
    -- the skipped head is counted first; it commutes past every token recorded after it
    rw [hmetrics, LexMetrics.foldl_record_skip, List.length_cons,
      show cs.length + 1 - textLength ts =
        cs.length - textLength ts + 1 by omega, Function.iterate_succ_apply]
  | @token p c cs ts kind n hn hstep htrace ih =>
    intro s s' hpos hrun
    subst hpos
    by_cases hover : countsTowardsLimit pr (tokenAt file s.pos (c :: cs) kind n) = true ∧
        Limits.standard.maxTokenCount < s.counted + 1
    · rw [run_token_over hstep hover.1 hover.2] at hrun
      cases hrun
    · rw [run_token hstep fun hc => Nat.le_of_not_lt fun hlt => hover ⟨hc, hlt⟩] at hrun
      obtain ⟨hposs, hmetrics⟩ := ih _ s' rfl hrun
      have hle := htrace.textLength_le
      refine ⟨?_, ?_⟩
      · rw [hposs, ← Position.advanceList_append, List.take_append_drop]
      · have hk : ((c :: cs).drop n).length - textLength ts =
            (c :: cs).length - ((tokenAt file s.pos (c :: cs) kind n).text.length +
              textLength ts) := by
          simp only [tokenAt, Token.make, String.length_ofList, List.length_take,
            List.length_drop] at hle ⊢
          omega
        rw [hmetrics, hk]
        rfl

/-- A successful pass records its tokens from fresh metrics, counts what they leave of the text
    as skipped, and takes the line count from where it ends. -/
theorem tokenize_ok_metrics {source : String} {r : Lexed} (h : tokenize pr source file = .ok r) :
    r.metrics = { (LexMetrics.skip pr)^[source.length - textLength r.tokens]
        (r.tokens.foldl (LexMetrics.record pr) {}) with
      lineCount := lineCountOf source (Position.start.advanceList source.toList) } := by
  have htrace := tokenize_trace h
  unfold tokenize at h
  split at h
  · cases h
  · next s hrun =>
    cases h
    obtain ⟨hpos, hmetrics⟩ := htrace.run_pos_metrics _ s rfl hrun
    rw [hpos, hmetrics, String.length_toList]

end Lexer

namespace Position

/-- From the start of a text, the line is one more than the line feeds read, on the 32-bit
    counter. -/
theorem start_advanceList_line (cs : List Char) :
    (start.advanceList cs).line = (1 + cs.count '\n') % lineRange := by
  obtain ⟨hl, -⟩ := advanceList_lineColumn start cs (1, 1) rfl rfl
  rw [hl, SourceMap.foldl_nextLineColumn]

end Position

theorem String.endsWith_lineFeed {s : String} :
    s.endsWith "\n" = true ↔ s.toList.getLast? = some '\n' := by
  rw [String.endsWith_eq_endsWith_toSlice, String.Slice.endsWith_string_iff]
  simp [List.singleton_suffix_iff_getLast?_eq_some]

/-- The lines of a text: none for the empty text, else one more than its line feeds, less the
    one that ends it; the final correction wraps with the 32-bit counter. -/
theorem lineCountOf_start_advanceList (source : String) :
    lineCountOf source (Position.start.advanceList source.toList) =
      if source = "" then 0
      else (1 + source.toList.count '\n' - if source.toList.getLast? = some '\n' then 1 else 0) %
        Position.lineRange := by
  have hR : Position.lineRange = 4294967296 := rfl
  unfold lineCountOf
  rw [Position.start_advanceList_line]
  by_cases hempty : source = ""
  · simp [hempty]
  · rw [if_neg (by simpa using hempty), if_neg hempty]
    by_cases hlf : source.toList.getLast? = some '\n'
    · rw [if_pos (String.endsWith_lineFeed.2 hlf), if_pos hlf, hR]
      omega
    · rw [if_neg (mt String.endsWith_lineFeed.1 hlf), if_neg hlf, hR]
      omega

section Tokenize

variable {pr : LexicalPreferences} {source file : String} {r : Lexed}

theorem tokenize_lineCount (h : tokenize pr source file = .ok r) :
    r.metrics.lineCount =
      if source = "" then 0
      else (1 + source.toList.count '\n' - if source.toList.getLast? = some '\n' then 1 else 0) %
        Position.lineRange := by
  rw [Lexer.tokenize_ok_metrics h, ← lineCountOf_start_advanceList]

/-- The metrics of a successful pass agree with its tokens and its text: the tokens counted
    overall, by kind (exactly the kinds that occur) and as comments; the lines, on the 32-bit
    counter; and, with detailed metrics, the characters no token takes and the byte size of the
    longest identifier, string literal and comment, which stay `0` without them. -/
theorem tokenize_metrics (h : tokenize pr source file = .ok r) :
    r.metrics.totalTokens = r.tokens.length ∧
    (∀ k, r.metrics.tokensByKind.get? k =
      if r.tokens.any (·.kind == k) then some (r.tokens.countP (·.kind == k)) else none) ∧
    r.metrics.commentCount = r.tokens.countP (·.kind == .comment) ∧
    r.metrics.lineCount =
      (if source = "" then 0
      else (1 + source.toList.count '\n' - if source.toList.getLast? = some '\n' then 1 else 0) %
        Position.lineRange) ∧
    (pr.collectDetailedMetrics = true →
      r.metrics.skippedChars + textLength r.tokens = source.length ∧
      r.metrics.maxIdentifierLength = largestText r.tokens .identifier ∧
      r.metrics.maxStringLength = largestText r.tokens .stringLiteral ∧
      r.metrics.maxCommentLength = largestText r.tokens .comment) ∧
    (pr.collectDetailedMetrics = false →
      r.metrics.skippedChars = 0 ∧ r.metrics.maxIdentifierLength = 0 ∧
      r.metrics.maxStringLength = 0 ∧ r.metrics.maxCommentLength = 0) := by
  have hle := (Lexer.tokenize_trace h).textLength_le
  rw [String.length_toList] at hle
  have hm := Lexer.tokenize_ok_metrics h
  -- the three largest sizes are one fold lemma at three fields
  have hid := @LexMetrics.foldl_record_largest pr r.tokens (·.maxIdentifierLength) .identifier
    (fun _ _ => LexMetrics.record_maxIdentifierLength) {}
  have hstr := @LexMetrics.foldl_record_largest pr r.tokens (·.maxStringLength) .stringLiteral
    (fun _ _ => LexMetrics.record_maxStringLength) {}
  have hcom := @LexMetrics.foldl_record_largest pr r.tokens (·.maxCommentLength) .comment
    (fun _ _ => LexMetrics.record_maxCommentLength) {}
  refine ⟨?_, fun k => ?_, ?_, tokenize_lineCount h, fun hd => ?_, fun hd => ?_⟩
  · simp [hm, LexMetrics.skip_iterate]
  · have hfresh : ({} : LexMetrics).tokensByKind.get? k = none := rfl
    rw [hm, LexMetrics.skip_iterate]
    dsimp only
    rw [LexMetrics.foldl_record_get?, hfresh]
    simp
  · simp [hm, LexMetrics.skip_iterate]
  · simp only [hd, if_true] at hid hstr hcom
    simp only [hm, LexMetrics.skip_iterate, hd, if_true, LexMetrics.foldl_record_skippedChars]
    refine ⟨by simp; omega, ?_, ?_, ?_⟩
    · simpa using hid
    · simpa using hstr
    · simpa using hcom
  · simp only [hd, Bool.false_eq_true, if_false] at hid hstr hcom
    simp only [hm, LexMetrics.skip_iterate, hd, LexMetrics.foldl_record_skippedChars]
    exact ⟨by simp, hid, hstr, hcom⟩

/-- A declaration with a trailing line comment: two identifiers' worth of counts, one comment,
    one line, and the blanks between the tokens skipped. -/
theorem tokenize_metrics_declaration :
    ∃ r, tokenize {} "int x; // c\n" "f.c" = .ok r ∧
      r.metrics.totalTokens = r.tokens.length ∧
      (∀ k, r.metrics.tokensByKind.get? k =
        if r.tokens.any (·.kind == k) then some (r.tokens.countP (·.kind == k)) else none) ∧
      r.metrics.commentCount = r.tokens.countP (·.kind == .comment) ∧
      r.metrics.lineCount =
        (if "int x; // c\n" = "" then 0
        else (1 + "int x; // c\n".toList.count '\n' -
          if "int x; // c\n".toList.getLast? = some '\n' then 1 else 0) % Position.lineRange) ∧
      (({} : LexicalPreferences).collectDetailedMetrics = true →
        r.metrics.skippedChars + textLength r.tokens = "int x; // c\n".length ∧
        r.metrics.maxIdentifierLength = largestText r.tokens .identifier ∧
        r.metrics.maxStringLength = largestText r.tokens .stringLiteral ∧
        r.metrics.maxCommentLength = largestText r.tokens .comment) ∧
      (({} : LexicalPreferences).collectDetailedMetrics = false →
        r.metrics.skippedChars = 0 ∧ r.metrics.maxIdentifierLength = 0 ∧
        r.metrics.maxStringLength = 0 ∧ r.metrics.maxCommentLength = 0) := by
  have hok : (tokenize {} "int x; // c\n" "f.c").toBool = true := by decide +kernel
  cases h : tokenize {} "int x; // c\n" "f.c" with
  | error e => simp [h, Except.toBool] at hok
  | ok r => exact ⟨r, rfl, tokenize_metrics h⟩

/-- A text of `2 ^ 32` line feeds has one more line than that, less the final feed, yet the
    32-bit counter reports no line at all. -/
theorem tokenize_lineCount_wraps :
    ∃ r, tokenize {} (String.ofList (List.replicate Position.lineRange '\n')) "input.c" =
        .ok r ∧
      (String.ofList (List.replicate Position.lineRange '\n')).toList.count '\n' =
        Position.lineRange ∧
      r.metrics.lineCount = 0 := by
  have hR : Position.lineRange = 4294967296 := rfl
  -- every character is a line feed, which the dispatch skips
  have htrace : Lexer.Trace "input.c" Position.start
      (String.ofList (List.replicate Position.lineRange '\n')).toList [] := by
    rw [String.toList_ofList, ← List.append_nil (List.replicate _ _)]
    exact Lexer.Trace.skip_blanks (fun d hd => .inr (List.eq_of_mem_replicate hd)) (.done _)
  obtain ⟨r, h, -⟩ := tokenize_ok_iff.2 ⟨htrace, by simp⟩
  have hne : String.ofList (List.replicate Position.lineRange '\n') ≠ "" := by
    rw [Ne, String.ofList_eq_empty_iff, List.replicate_eq_nil_iff, hR]
    omega
  refine ⟨r, h, by simp, ?_⟩
  rw [tokenize_lineCount h, if_neg hne, String.toList_ofList, List.count_replicate_self,
    List.getLast?_replicate, if_neg (show ¬ Position.lineRange = 0 by rw [hR]; omega), if_pos rfl,
    hR]

end Tokenize

end COutline
