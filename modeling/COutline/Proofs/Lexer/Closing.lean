import COutline.Proofs.Lexer.MaximalMunch

/-!
# Where block comments and string literals close

Both scanners read the text after their opener one character at a time, with one bit of state,
and both close at the first place that the parity of a run decides:

* a block comment closes at the first `/` after its `/*` that follows an odd run of `*`
  (`blockComment_closing`).  The scanner is looking for a slash exactly when the stars just read
  are odd in number, because a star read while it looks for a slash sends it back to looking
  for a star: `/*/` and `/* **/` stay open, `/* */` and `/* ***/` close;
* a string literal closes at the first `"` after its opening quote that follows an even run of
  `\` inside the literal (`stringLiteral_closing`).  A backslash takes the next character into
  the literal whatever it is, so within a run of backslashes every other one escapes, and the
  character after the run is escaped exactly when the run is odd.

The scanners count characters; the statements count UTF-8 bytes, as offsets into the text's
encoding (`Utf8.encode`).  The four characters involved are ASCII, and every byte of a wider
character is at least `0x80`, so a byte of the encoding is one of them exactly where that
character stands (`Utf8.getElem?_encode_ascii`), and a run of one of them is as long counted in
bytes as in characters (`Utf8.foldl_runStep_encode`).
-/

namespace COutline

/-! ## Runs -/

section Runs

variable {α : Type} [BEq α]

/-- The run of `a`s after one more element `x`, from a run of `n`: it grows on an `a` and is over
    on anything else. -/
def runStep (a : α) (n : Nat) (x : α) : Nat := if x == a then n + 1 else 0

/-- The length of the run of `a`s that ends `l`. -/
def trailingRun (a : α) (l : List α) : Nat := l.foldl (runStep a) 0

/-- A list that ends in something other than `a` ends no run of `a`s, whatever came before. -/
theorem foldl_runStep_of_forall_ne {a : α} {l : List α} (hl : l ≠ [])
    (h : ∀ x ∈ l, (x == a) = false) (n : Nat) : l.foldl (runStep a) n = 0 := by
  induction l generalizing n with
  | nil => exact absurd rfl hl
  | cons x l ih =>
    rw [List.foldl_cons]
    have hx : runStep a n x = 0 := by
      rw [runStep, if_neg (by simp [h x List.mem_cons_self])]
    by_cases hnil : l = []
    · rw [hnil, hx]
      rfl
    · exact ih hnil (fun y hy => h y (List.mem_cons_of_mem x hy)) _

end Runs

namespace Utf8

/-! ## The bytes of a text -/

/-- The UTF-8 bytes of `cs`: the bytes of `String.ofList cs`, in order. -/
def encode (cs : List Char) : List UInt8 := cs.flatMap String.utf8EncodeChar

@[simp] theorem encode_nil : encode [] = [] := rfl

@[simp] theorem encode_cons (c : Char) (cs : List Char) :
    encode (c :: cs) = String.utf8EncodeChar c ++ encode cs := List.flatMap_cons

@[simp] theorem encode_append (xs ys : List Char) : encode (xs ++ ys) = encode xs ++ encode ys :=
  List.flatMap_append

@[simp] theorem length_encode (cs : List Char) : (encode cs).length = size cs := by
  induction cs with
  | nil => rfl
  | cons c cs ih => simp [ih]

/-- The bytes before the `k`-th character are the bytes of the first `k` characters. -/
theorem take_encode (cs : List Char) (k : Nat) :
    (encode cs).take (size (cs.take k)) = encode (cs.take k) := by
  have hsplit : encode cs = encode (cs.take k) ++ encode (cs.drop k) := by
    rw [← encode_append, List.take_append_drop]
  rw [hsplit, List.take_left' (length_encode _)]

theorem size_take_succ {cs : List Char} {k : Nat} {c : Char} (h : cs[k]? = some c) :
    size (cs.take (k + 1)) = size (cs.take k) + c.utf8Size := by
  rw [List.take_add_one, h, size_append]
  simp

/-- Characters start at strictly growing byte offsets. -/
theorem size_take_lt_size_take {cs : List Char} {j k : Nat} (hjk : j < k) (hk : k ≤ cs.length) :
    size (cs.take j) < size (cs.take k) := by
  induction cs generalizing j k with
  | nil => simp at hk; omega
  | cons c cs ih =>
    obtain ⟨k, rfl⟩ : ∃ k', k = k' + 1 := ⟨k - 1, by omega⟩
    have hpos := c.utf8Size_pos
    cases j with
    | zero => simp; omega
    | succ j =>
      simp only [List.take_succ_cons, size_cons]
      have := ih (j := j) (k := k) (by omega) (by simpa using hk)
      omega

/-! ## ASCII characters among the bytes -/

variable {a c : Char}

/-- An ASCII character is one byte, its code. -/
theorem utf8EncodeChar_of_ascii (ha : a.utf8Size = 1) : String.utf8EncodeChar a = [a.toUInt8] :=
  String.utf8EncodeChar_eq_singleton ha

theorem toUInt8_lt_of_ascii (ha : a.utf8Size = 1) : a.toUInt8 < 0x80 := by
  rw [Char.utf8Size_eq_one_iff, UInt32.le_iff_toNat_le] at ha
  rw [UInt8.lt_iff_toNat_lt, Char.toUInt8, UInt32.toNat_toUInt8]
  simp only [UInt32.reduceToNat] at ha
  simp only [UInt8.reduceToNat]
  omega

/-- An ASCII character is determined by its byte. -/
theorem eq_of_toUInt8_eq (ha : a.utf8Size = 1) (hc : c.utf8Size = 1)
    (h : c.toUInt8 = a.toUInt8) : c = a := by
  rw [Char.utf8Size_eq_one_iff, UInt32.le_iff_toNat_le] at ha hc
  have h' := congrArg UInt8.toNat h
  simp only [Char.toUInt8, UInt32.toNat_toUInt8] at h'
  simp only [UInt32.reduceToNat] at ha hc
  apply Char.ext
  apply UInt32.toNat_inj.1
  omega

/-- Every byte of a character wider than one byte is at least `0x80`: a lead byte or a
    continuation byte. -/
theorem le_of_mem_utf8EncodeChar (hc : c.utf8Size ≠ 1) {b : UInt8}
    (hb : b ∈ String.utf8EncodeChar c) : 0x80 ≤ b := by
  rcases Char.utf8Size_eq c with h | h | h | h
  · exact absurd h hc
  · rw [String.utf8EncodeChar_eq_cons_cons h] at hb
    simp only [List.mem_cons, List.not_mem_nil, or_false] at hb
    rcases hb with rfl | rfl
    · exact UInt8.le_trans (by decide) UInt8.right_le_or
    · exact UInt8.right_le_or
  · rw [String.utf8EncodeChar_eq_cons_cons_cons h] at hb
    simp only [List.mem_cons, List.not_mem_nil, or_false] at hb
    rcases hb with rfl | rfl | rfl
    · exact UInt8.le_trans (by decide) UInt8.right_le_or
    · exact UInt8.right_le_or
    · exact UInt8.right_le_or
  · rw [String.utf8EncodeChar_eq_cons_cons_cons_cons h] at hb
    simp only [List.mem_cons, List.not_mem_nil, or_false] at hb
    rcases hb with rfl | rfl | rfl | rfl
    · exact UInt8.le_trans (by decide) UInt8.right_le_or
    · exact UInt8.right_le_or
    · exact UInt8.right_le_or
    · exact UInt8.right_le_or

/-- No byte of a character other than the ASCII character `a` is `a`'s byte. -/
theorem ne_toUInt8_of_mem (ha : a.utf8Size = 1) (hca : c ≠ a) {b : UInt8}
    (hb : b ∈ String.utf8EncodeChar c) : b ≠ a.toUInt8 := by
  by_cases hc : c.utf8Size = 1
  · rw [utf8EncodeChar_of_ascii hc, List.mem_singleton] at hb
    rw [hb]
    exact fun h => hca (eq_of_toUInt8_eq ha hc h)
  · have hlo := toUInt8_lt_of_ascii ha
    have hhi := le_of_mem_utf8EncodeChar hc hb
    intro h
    rw [h] at hhi
    exact absurd hlo (UInt8.not_lt.2 hhi)

/-- Byte `q` of a text is the ASCII character `a` exactly where `a` stands as a character, at the
    byte offset of its index. -/
theorem getElem?_encode_ascii (ha : a.utf8Size = 1) (cs : List Char) (q : Nat) :
    (encode cs)[q]? = some a.toUInt8 ↔ ∃ k, cs[k]? = some a ∧ q = size (cs.take k) := by
  induction cs generalizing q with
  | nil => simp
  | cons c cs ih =>
    rw [encode_cons]
    have hpos := c.utf8Size_pos
    by_cases hq : q < c.utf8Size
    · -- byte `q` lies in the head character: it is `a` exactly when the head is `a`
      rw [List.getElem?_append_left (by simpa using hq)]
      constructor
      · intro h
        have hmem := List.mem_of_getElem? h
        by_cases hca : c = a
        · subst hca
          have hq0 : q = 0 := by rw [ha] at hq; omega
          exact ⟨0, rfl, by simp [hq0]⟩
        · exact absurd rfl (ne_toUInt8_of_mem ha hca hmem)
      · rintro ⟨k, hk, rfl⟩
        cases k with
        | zero =>
          simp only [List.getElem?_cons_zero, Option.some.injEq] at hk
          subst hk
          simp [utf8EncodeChar_of_ascii ha]
        | succ k =>
          simp only [List.take_succ_cons, size_cons] at hq
          omega
    · -- byte `q` lies past the head character, at byte `q - c.utf8Size` of the rest
      rw [List.getElem?_append_right (by simpa using hq), String.length_utf8EncodeChar, ih]
      constructor
      · rintro ⟨k, hk, hkq⟩
        exact ⟨k + 1, by simpa using hk, by simp; omega⟩
      · rintro ⟨k, hk, hkq⟩
        cases k with
        | zero => simp at hkq; omega
        | succ k => exact ⟨k, by simpa using hk, by simp at hkq; omega⟩

/-- The bytes of one character extend a run of the ASCII character `a`'s byte as the character
    extends a run of `a`. -/
theorem foldl_runStep_utf8EncodeChar (ha : a.utf8Size = 1) (c : Char) (n : Nat) :
    (String.utf8EncodeChar c).foldl (runStep a.toUInt8) n = runStep a n c := by
  by_cases hca : c = a
  · subst hca
    simp [utf8EncodeChar_of_ascii ha, runStep]
  · have hend : runStep a n c = 0 := by simp [runStep, hca]
    rw [hend]
    apply foldl_runStep_of_forall_ne
    · rw [← List.length_pos_iff, String.length_utf8EncodeChar]
      exact c.utf8Size_pos
    · intro b hb
      simpa using ne_toUInt8_of_mem ha hca hb

/-- A run of an ASCII character is as long in bytes as in characters. -/
theorem foldl_runStep_encode (ha : a.utf8Size = 1) (cs : List Char) (n : Nat) :
    (encode cs).foldl (runStep a.toUInt8) n = cs.foldl (runStep a) n := by
  induction cs generalizing n with
  | nil => rfl
  | cons c cs ih =>
    rw [encode_cons, List.foldl_append, foldl_runStep_utf8EncodeChar ha, ih, List.foldl_cons]

/-- Byte `q` of `cs` is the ASCII character `a` after a run of the ASCII character `b` whose
    length satisfies `P`, exactly where this holds of the characters at the byte offset `q`. -/
theorem ascii_after_run_iff {b : Char} (ha : a.utf8Size = 1) (hb : b.utf8Size = 1)
    (P : Nat → Prop) (cs : List Char) (q : Nat) :
    ((encode cs)[q]? = some a.toUInt8 ∧ P (trailingRun b.toUInt8 ((encode cs).take q))) ↔
      ∃ k, q = size (cs.take k) ∧ cs[k]? = some a ∧ P (trailingRun b (cs.take k)) := by
  constructor
  · rintro ⟨hq, hrun⟩
    obtain ⟨k, hk, rfl⟩ := (getElem?_encode_ascii ha cs q).1 hq
    rw [take_encode, trailingRun, foldl_runStep_encode hb] at hrun
    exact ⟨k, rfl, hk, hrun⟩
  · rintro ⟨k, rfl, hk, hrun⟩
    refine ⟨(getElem?_encode_ascii ha cs _).2 ⟨k, hk, rfl⟩, ?_⟩
    rw [take_encode, trailingRun, foldl_runStep_encode hb]
    exact hrun

end Utf8

namespace Lexeme

/-! ## Block comments -/

/-- Byte `q` of the text `u` that follows a block comment's `/*` closes the comment: it is a `/`,
    and the run of `*` right before it is odd. -/
def ClosesComment (u : List Char) (q : Nat) : Prop :=
  (Utf8.encode u)[q]? = some '/'.toUInt8 ∧
    trailingRun '*'.toUInt8 ((Utf8.encode u).take q) % 2 = 1

/-- Index `k` of `w` holds a `/` that closes a block comment, `w` following a run of `r` stars:
    the stars right before the slash, those `r` included, are odd in number. -/
def closesBlockAt (r : Nat) (w : List Char) (k : Nat) : Prop :=
  w[k]? = some '/' ∧ (w.take k).foldl (runStep '*') r % 2 = 1

section Block

variable {c : Char} {w : List Char} {r n k : Nat}

theorem closesBlockAt_zero : closesBlockAt r (c :: w) 0 ↔ c = '/' ∧ r % 2 = 1 := by
  simp [closesBlockAt]

theorem closesBlockAt_succ :
    closesBlockAt r (c :: w) (k + 1) ↔ closesBlockAt (runStep '*' r c) w k := by
  simp [closesBlockAt]

/-- Closing bytes of the text after `/*` are the byte offsets of closing characters. -/
theorem closesComment_iff (u : List Char) (q : Nat) :
    ClosesComment u q ↔ ∃ k, q = Utf8.size (u.take k) ∧ closesBlockAt 0 u k :=
  Utf8.ascii_after_run_iff (by decide) (by decide) (· % 2 = 1) u q

/-- The scanner's bit is the parity of the run of stars: reading a character that does not
    close moves the bit as the character moves the run. -/
theorem blockBody_cons (h : ¬ (c = '/' ∧ r % 2 = 1)) :
    blockBody (c :: w) (decide (r % 2 = 1)) n =
      blockBody w (decide (runStep '*' r c % 2 = 1)) (n + 1) := by
  by_cases hr : r % 2 = 1
  · have hc : c ≠ '/' := fun hc => h ⟨hc, hr⟩
    -- looking for a slash: anything else, a star included, ends the run's odd parity
    have hnext : decide (runStep '*' r c % 2 = 1) = false := by
      by_cases hs : c = '*'
      · have hodd : (r + 1) % 2 = 0 := by omega
        simp [runStep, hs, hodd]
      · simp [runStep, hs]
    simp only [hr, decide_true, hnext, blockBody, if_neg hc]
  · have hnext : decide (runStep '*' r c % 2 = 1) = decide (c = '*') := by
      by_cases hs : c = '*'
      · have hodd : (r + 1) % 2 = 1 := by omega
        simp [runStep, hs, hodd]
      · simp [runStep, hs]
    simp only [hr, decide_false, hnext, blockBody]

/-- The scanner stops at the first closing slash, with the characters up to it counted. -/
theorem blockBody_of_closes (hk : closesBlockAt r w k)
    (hfirst : ∀ j < k, ¬ closesBlockAt r w j) :
    blockBody w (decide (r % 2 = 1)) n = some (n + k + 1) := by
  induction w generalizing r k n with
  | nil => simp [closesBlockAt] at hk
  | cons c w ih =>
    cases k with
    | zero =>
      obtain ⟨rfl, hr⟩ := closesBlockAt_zero.1 hk
      simp [hr, blockBody]
    | succ k =>
      rw [blockBody_cons (fun h => hfirst 0 (Nat.succ_pos k) (closesBlockAt_zero.2 h)),
        ih (closesBlockAt_succ.1 hk)
          (fun j hj hc => hfirst (j + 1) (by omega) (closesBlockAt_succ.2 hc))]
      congr 1
      omega

/-- Without a closing slash the scanner reaches the end of the text. -/
theorem blockBody_of_never (h : ∀ k, ¬ closesBlockAt r w k) :
    blockBody w (decide (r % 2 = 1)) n = none := by
  induction w generalizing r n with
  | nil => rfl
  | cons c w ih =>
    rw [blockBody_cons (fun hc => h 0 (closesBlockAt_zero.2 hc)),
      ih (fun k hc => h (k + 1) (closesBlockAt_succ.2 hc))]

end Block

/-- A block comment is the text from `/*` through the first `/` that follows an odd run of `*`,
    counted in bytes; when there is none it runs to the end of the text; and a text that does
    not start with `/*` opens none. -/
theorem blockComment_closing (r : List Char) :
    ((blockComment r).inBytes r = .noMatch ↔ ¬ ['/', '*'] <+: r) ∧
    ∀ u, r = '/' :: '*' :: u →
      (∀ q, ClosesComment u q → (∀ p < q, ¬ ClosesComment u p) →
        (blockComment r).inBytes r = .matched (2 + q + 1)) ∧
      ((∀ q, ¬ ClosesComment u q) →
        (blockComment r).inBytes r = .unterminated (Utf8.size r)) := by
  refine ⟨?_, ?_⟩
  · rw [List.prefix_iff_eq_take]
    constructor
    · intro h hpre
      obtain ⟨u, rfl⟩ : ∃ u, r = '/' :: '*' :: u := by
        rcases r with _ | ⟨x, _ | ⟨y, u⟩⟩ <;> simp at hpre
        exact ⟨u, by rw [hpre.1, hpre.2]⟩
      cases hb : blockComment ('/' :: '*' :: u) with
      | noMatch => exact Lexer.blockComment_ne_noMatch u hb
      | matched n => rw [hb] at h; cases h
      | unterminated n => rw [hb] at h; cases h
    · intro h
      rw [Lexer.blockComment_eq_noMatch (Ne.symm h)]
      rfl
  · rintro u rfl
    refine ⟨fun q hq hleast => ?_, fun hnone => ?_⟩
    · obtain ⟨k, rfl, hk⟩ := (closesComment_iff u q).1 hq
      -- the least closing byte is the offset of the least closing character
      have hku : k < u.length := (List.getElem?_eq_some_iff.1 hk.1).1
      have hfirst : ∀ j < k, ¬ closesBlockAt 0 u j := fun j hj hc =>
        hleast _ (Utf8.size_take_lt_size_take hj (Nat.le_of_lt hku))
          ((closesComment_iff u _).2 ⟨j, rfl, hc⟩)
      have hbody : blockBody u false 2 = some (2 + k + 1) := blockBody_of_closes hk hfirst
      simp only [blockComment, hbody, Scan.inBytes]
      rw [show 2 + k + 1 = k + 1 + 1 + 1 by omega, List.take_succ_cons, List.take_succ_cons,
        Utf8.size_cons, Utf8.size_cons, Utf8.size_take_succ hk.1]
      have hslash : '/'.utf8Size = 1 := by decide
      have hstar : '*'.utf8Size = 1 := by decide
      rw [hslash, hstar]
      congr 1
      omega
    · have hbody : blockBody u false 2 = none :=
        blockBody_of_never (r := 0)
          (fun k hc => hnone _ ((closesComment_iff u _).2 ⟨k, rfl, hc⟩))
      simp only [blockComment, hbody, Scan.inBytes]
      rw [List.take_of_length_le (by simp)]

example : (blockComment "/* a **/ b */".toList).inBytes "/* a **/ b */".toList = .matched 13 := by
  decide

/-! ## String literals -/

/-- Byte `q` of a text `r` that opens with `"` closes the string literal: it is a `"` after the
    opening one, and the run of `\` right before it, inside the literal, is even. -/
def ClosesString (r : List Char) (q : Nat) : Prop :=
  1 ≤ q ∧ (Utf8.encode r)[q]? = some '"'.toUInt8 ∧
    trailingRun '\\'.toUInt8 (((Utf8.encode r).take q).drop 1) % 2 = 0

/-- Index `k` of `w` holds a `"` that closes a string literal, `w` following a run of `r`
    backslashes inside the literal: the backslashes right before the quote are even in number. -/
def closesStringAt (r : Nat) (w : List Char) (k : Nat) : Prop :=
  w[k]? = some '"' ∧ (w.take k).foldl (runStep '\\') r % 2 = 0

section Literal

variable {c : Char} {w : List Char} {r n k : Nat}

theorem closesStringAt_zero : closesStringAt r (c :: w) 0 ↔ c = '"' ∧ r % 2 = 0 := by
  simp [closesStringAt]

theorem closesStringAt_succ :
    closesStringAt r (c :: w) (k + 1) ↔ closesStringAt (runStep '\\' r c) w k := by
  simp [closesStringAt]

/-- Closing bytes of a literal are one past the byte offsets of closing characters of its text. -/
theorem closesString_iff (w : List Char) (q : Nat) :
    ClosesString ('"' :: w) q ↔ ∃ k, q = 1 + Utf8.size (w.take k) ∧ closesStringAt 0 w k := by
  have hquote : String.utf8EncodeChar '"' = ['"'.toUInt8] := by decide
  have hw := Utf8.ascii_after_run_iff (a := '"') (b := '\\') (by decide) (by decide)
    (· % 2 = 0) w
  cases q with
  | zero =>
    constructor
    · rintro ⟨h, -⟩
      omega
    · rintro ⟨k, hk, -⟩
      omega
  | succ q =>
    -- past the opening quote, byte `q + 1` of the literal is byte `q` of its text
    simp only [ClosesString, Utf8.encode_cons, hquote, List.singleton_append,
      List.getElem?_cons_succ, List.take_succ_cons, List.drop_succ_cons, List.drop_zero]
    constructor
    · rintro ⟨-, hq⟩
      obtain ⟨k, rfl, hk, hrun⟩ := (hw q).1 hq
      exact ⟨k, by omega, hk, hrun⟩
    · rintro ⟨k, hkq, hk, hrun⟩
      exact ⟨by omega, (hw q).2 ⟨k, by omega, hk, hrun⟩⟩

/-- A backslash and the character it takes into the literal leave an even run of backslashes
    behind them, as there was before. -/
theorem runStep_escape (hr : r % 2 = 0) (d : Char) :
    runStep '\\' (runStep '\\' r '\\') d % 2 = 0 := by
  by_cases hd : d = '\\'
  · simp [runStep, hd]
    omega
  · simp [runStep, hd]

/-- The scanner stops at the first closing quote, with the characters up to it counted; it only
    ever reads a character fresh after an even run of backslashes. -/
theorem stringBody_of_closes (hr : r % 2 = 0) (hk : closesStringAt r w k)
    (hfirst : ∀ j < k, ¬ closesStringAt r w j) : stringBody w n = some (n + k + 1) := by
  fun_induction stringBody w n generalizing r k with
  | case1 n => simp [closesStringAt] at hk
  | case2 n =>
    obtain ⟨hq, -⟩ := hk
    cases k <;> simp at hq
  | case3 d cs n ih =>
    -- a backslash at index 0 and the character it escapes at index 1 never close
    rcases k with _ | _ | k
    · exact absurd (closesStringAt_zero.1 hk).1 (by decide)
    · have h1 := (closesStringAt_zero.1 (closesStringAt_succ.1 hk)).2
      simp [runStep] at h1
      omega
    · rw [ih (runStep_escape hr d) (closesStringAt_succ.1 (closesStringAt_succ.1 hk))
        (fun j hj hc => hfirst (j + 2) (by omega)
          (closesStringAt_succ.2 (closesStringAt_succ.2 hc)))]
      congr 1
      omega
  | case4 cs n =>
    cases k with
    | zero => rfl
    | succ k => exact absurd (closesStringAt_zero.2 ⟨rfl, hr⟩) (hfirst 0 (Nat.succ_pos k))
  | case5 c cs n hnil hcons hc ih =>
    have hback : c ≠ '\\' := by
      intro hcb
      cases cs with
      | nil => exact hnil hcb rfl
      | cons d cs => exact hcons d cs hcb rfl
    cases k with
    | zero => exact absurd (closesStringAt_zero.1 hk).1 hc
    | succ k =>
      have hrun : runStep '\\' r c = 0 := by simp [runStep, hback]
      have hk' := closesStringAt_succ.1 hk
      rw [hrun] at hk'
      rw [ih (r := 0) rfl hk' (fun j hj hcl => hfirst (j + 1) (by omega)
        (closesStringAt_succ.2 (by rw [hrun]; exact hcl)))]
      congr 1
      omega

/-- Without a closing quote the scanner reaches the end of the text. -/
theorem stringBody_of_never (hr : r % 2 = 0) (h : ∀ k, ¬ closesStringAt r w k) :
    stringBody w n = none := by
  fun_induction stringBody w n generalizing r with
  | case1 n => rfl
  | case2 n => rfl
  | case3 d cs n ih =>
    exact ih (runStep_escape hr d)
      (fun k hc => h (k + 2) (closesStringAt_succ.2 (closesStringAt_succ.2 hc)))
  | case4 cs n => exact absurd (closesStringAt_zero.2 ⟨rfl, hr⟩) (h 0)
  | case5 c cs n hnil hcons hc ih =>
    have hback : c ≠ '\\' := by
      intro hcb
      cases cs with
      | nil => exact hnil hcb rfl
      | cons d cs => exact hcons d cs hcb rfl
    have hrun : runStep '\\' r c = 0 := by simp [runStep, hback]
    exact ih (r := 0) rfl (fun k hcl => h (k + 1) (closesStringAt_succ.2 (by rw [hrun]; exact hcl)))

theorem stringLiteral_quote_ne_noMatch (w : List Char) : stringLiteral ('"' :: w) ≠ .noMatch := by
  rw [stringLiteral]
  split <;> simp

end Literal

/-- A string literal is the text from `"` through the first later `"` that follows an even run of
    `\` inside the literal, counted in bytes; when there is none it runs to the end of the text;
    and a text that does not start with `"` opens none. -/
theorem stringLiteral_closing (r : List Char) :
    ((stringLiteral r).inBytes r = .noMatch ↔ r.head? ≠ some '"') ∧
    (r.head? = some '"' →
      (∀ q, ClosesString r q → (∀ p < q, ¬ ClosesString r p) →
        (stringLiteral r).inBytes r = .matched (q + 1)) ∧
      ((∀ q, ¬ ClosesString r q) →
        (stringLiteral r).inBytes r = .unterminated (Utf8.size r))) := by
  refine ⟨?_, ?_⟩
  · constructor
    · intro h hhead
      obtain ⟨w, rfl⟩ : ∃ w, r = '"' :: w := by
        rcases r with _ | ⟨x, w⟩ <;> simp at hhead
        exact ⟨w, by rw [hhead]⟩
      cases hb : stringLiteral ('"' :: w) with
      | noMatch => exact stringLiteral_quote_ne_noMatch w hb
      | matched n => rw [hb] at h; cases h
      | unterminated n => rw [hb] at h; cases h
    · intro h
      have hlit : stringLiteral r = .noMatch := by
        unfold stringLiteral
        split
        · simp at h
        · rfl
      rw [hlit]
      rfl
  · intro hhead
    obtain ⟨w, rfl⟩ : ∃ w, r = '"' :: w := by
      rcases r with _ | ⟨x, w⟩ <;> simp at hhead
      exact ⟨w, by rw [hhead]⟩
    refine ⟨fun q hq hleast => ?_, fun hnone => ?_⟩
    · obtain ⟨k, rfl, hk⟩ := (closesString_iff w q).1 hq
      -- the least closing byte is one past the offset of the least closing character
      have hkw : k < w.length := (List.getElem?_eq_some_iff.1 hk.1).1
      have hfirst : ∀ j < k, ¬ closesStringAt 0 w j := fun j hj hc =>
        hleast _ (by have := Utf8.size_take_lt_size_take hj (Nat.le_of_lt hkw); omega)
          ((closesString_iff w _).2 ⟨j, rfl, hc⟩)
      have hbody : stringBody w 1 = some (1 + k + 1) := stringBody_of_closes rfl hk hfirst
      simp only [stringLiteral, hbody, Scan.inBytes]
      rw [show 1 + k + 1 = k + 1 + 1 by omega, List.take_succ_cons, Utf8.size_cons,
        Utf8.size_take_succ hk.1]
      have hquote : '"'.utf8Size = 1 := by decide
      rw [hquote]
      exact congrArg Scan.matched (by omega)
    · have hbody : stringBody w 1 = none :=
        stringBody_of_never (r := 0) rfl
          (fun k hc => hnone _ ((closesString_iff w _).2 ⟨k, rfl, hc⟩))
      simp only [stringLiteral, hbody, Scan.inBytes]
      rw [List.take_of_length_le (by simp)]

example : (stringLiteral "\"é\\\"".toList).inBytes "\"é\\\"".toList = .unterminated 5 := by
  decide

end Lexeme

end COutline
