import COutline.Analysis.Body
import Mathlib.Data.List.TakeWhile

/-!
# Brace counting and the extent of a body

A body is read from its opening brace to the `}` that matches it, counting braces: each `{`
opens one more block and each `}` closes the innermost.  `closingLength d ts` is the number of
tokens read from `ts` until `d` open blocks are all closed, the last `}` included, or `none`
when `ts` ends first.  Closing `a + b` blocks is closing `a` and then `b`
(`closingLength_add`).

The reader of a block, `Body.items`, consumes exactly that extent (`items_rest`).  In lenient
mode it lists the braces that stay open, and strict mode fails at the innermost of them and
otherwise returns the same tree (`items_strict`); the tree is well formed exactly when no brace
stays open (`items_wellFormed`), and the innermost open brace is the last `{` of the text that
nothing after it closes (`items_lastUnclosed`).
-/

namespace COutline

theorem Block.allWellFormed_append_singleton (bs : List Block) (x : Block) :
    Block.allWellFormed (bs ++ [x]) = (Block.allWellFormed bs && x.isWellFormed) := by
  induction bs with
  | nil => simp [Block.allWellFormed]
  | cons y bs ih => simp [Block.allWellFormed, ih, Bool.and_assoc]

namespace Analysis

/-- Open blocks after reading `t` with `d + 1` of them open. -/
def afterToken (d : Nat) (t : Token) : Nat :=
  if t.kind = .openingCurlyBrace then d + 2
  else if t.kind = .closingCurlyBrace then d
  else d + 1

/-- The number of tokens of `ts` read until `d` open blocks are all closed, the closing brace
    included, or `none` when `ts` ends first. -/
def closingLength : Nat → List Token → Option Nat
  | 0, _ => some 0
  | _ + 1, [] => none
  | d + 1, t :: ts => (closingLength (afterToken d t) ts).map (· + 1)

/-- Every `{` of `ts` is matched by a `}` after it in `ts`. -/
def AllClosed : List Token → Prop
  | [] => True
  | t :: ts => (t.kind = .openingCurlyBrace → (closingLength 1 ts).isSome) ∧ AllClosed ts

/-- `o` is the last `{` of `ts` that no `}` after it matches. -/
def LastUnclosed (ts : List Token) (o : Token) : Prop :=
  ∃ pre post, ts = pre ++ o :: post ∧ o.kind = .openingCurlyBrace ∧
    closingLength 1 post = none ∧ AllClosed post

@[simp] theorem closingLength_zero (ts : List Token) : closingLength 0 ts = some 0 := by
  cases ts <;> rfl

@[simp] theorem closingLength_succ_nil (d : Nat) : closingLength (d + 1) [] = none := rfl

@[simp] theorem closingLength_succ_cons (d : Nat) (t : Token) (ts : List Token) :
    closingLength (d + 1) (t :: ts) = (closingLength (afterToken d t) ts).map (· + 1) := rfl

theorem afterToken_add (a b : Nat) (t : Token) : afterToken (a + b) t = afterToken a t + b := by
  unfold afterToken
  split
  · omega
  · split <;> omega

theorem afterToken_of_not_isBrace {d : Nat} {t : Token} (h : isBrace t = false) :
    afterToken d t = d + 1 := by
  simp only [isBrace, Bool.or_eq_false_iff, beq_eq_false_iff_ne, ne_eq] at h
  simp [afterToken, h.1, h.2]

theorem afterToken_open {d : Nat} {t : Token} (h : t.kind = .openingCurlyBrace) :
    afterToken d t = d + 2 := by
  simp [afterToken, h]

theorem afterToken_close {d : Nat} {t : Token} (h : t.kind = .closingCurlyBrace) :
    afterToken d t = d := by
  simp [afterToken, h]

/-- Closing `a + b` blocks is closing `a` of them and then `b` more from where that ends. -/
theorem closingLength_add (a b : Nat) (ts : List Token) :
    closingLength (a + b) ts =
      (closingLength a ts).bind fun k => (closingLength b (ts.drop k)).map (k + ·) := by
  induction ts generalizing a with
  | nil =>
    cases a with
    | zero => simp
    | succ a => rw [Nat.succ_add]; rfl
  | cons t ts ih =>
    cases a with
    | zero => simp
    | succ a =>
      rw [Nat.succ_add, closingLength_succ_cons, closingLength_succ_cons, afterToken_add, ih]
      cases closingLength (afterToken a t) ts with
      | none => rfl
      | some k =>
        simp only [Option.bind_some, Option.map_some, List.drop_succ_cons, Option.map_map]
        congr 1
        funext x
        simp only [Function.comp]
        omega

/-- Closing more blocks needs closing one first. -/
theorem closingLength_one_isSome {d : Nat} {ts : List Token}
    (h : (closingLength (d + 1) ts).isSome) : (closingLength 1 ts).isSome := by
  rw [Nat.add_comm, closingLength_add] at h
  cases h' : closingLength 1 ts with
  | none => simp [h'] at h
  | some k => rfl

theorem closingLength_one_cons (t : Token) (ts : List Token) :
    closingLength 1 (t :: ts) = (closingLength (afterToken 0 t) ts).map (· + 1) := rfl

/-- A `}` closes the one open block. -/
theorem closingLength_one_close {t : Token} (ht : t.kind = .closingCurlyBrace) (ts : List Token) :
    closingLength 1 (t :: ts) = some 1 := by
  rw [closingLength_one_cons, afterToken_close ht, closingLength_zero]
  rfl

/-- After a `{`, its own block closes first and then the enclosing one. -/
theorem closingLength_one_open {t : Token} (ht : t.kind = .openingCurlyBrace) (ts : List Token) :
    closingLength 1 (t :: ts) =
      ((closingLength 1 ts).bind fun k => (closingLength 1 (ts.drop k)).map (k + ·)).map (· + 1) := by
  rw [closingLength_one_cons, afterToken_open ht, show 0 + 2 = 1 + 1 from rfl, closingLength_add]

theorem closingLength_le_length {d k : Nat} {ts : List Token} (h : closingLength d ts = some k) :
    k ≤ ts.length := by
  induction ts generalizing d k with
  | nil =>
    cases d with
    | zero => simp at h; omega
    | succ d => simp at h
  | cons t ts ih =>
    cases d with
    | zero => simp at h; omega
    | succ d =>
      rw [closingLength_succ_cons] at h
      obtain ⟨j, hj, rfl⟩ := Option.map_eq_some_iff.1 h
      have := ih hj
      simp only [List.length_cons]
      omega

/-- Tokens that are no brace only lengthen the count. -/
theorem closingLength_nonBrace {nb : List Token} (ts : List Token)
    (hnb : ∀ x ∈ nb, isBrace x = false) :
    closingLength 1 (nb ++ ts) = (closingLength 1 ts).map (nb.length + ·) := by
  induction nb with
  | nil => simp
  | cons x nb ih =>
    rw [List.cons_append, closingLength_one_cons, afterToken_of_not_isBrace (hnb x (by simp)),
      Nat.zero_add, ih fun y hy => hnb y (by simp [hy]), Option.map_map]
    congr 1
    funext k
    simp only [Function.comp, List.length_cons]
    omega

theorem closingLength_one_of_nonBrace {ts : List Token} (h : ∀ x ∈ ts, isBrace x = false) :
    closingLength 1 ts = none := by
  simpa using closingLength_nonBrace [] h

/-- What the reader of a block skips before its next brace. -/
theorem dropWhile_not_isBrace (ts : List Token) :
    ∃ nb, ts = nb ++ ts.dropWhile (fun t => !isBrace t) ∧ ∀ x ∈ nb, isBrace x = false := by
  refine ⟨ts.takeWhile (fun t => !isBrace t), List.takeWhile_append_dropWhile.symm, ?_⟩
  intro x hx
  simpa using List.mem_takeWhile_imp hx

theorem allClosed_nonBrace {nb ts : List Token} (hnb : ∀ x ∈ nb, isBrace x = false)
    (h : AllClosed ts) : AllClosed (nb ++ ts) := by
  induction nb with
  | nil => exact h
  | cons x nb ih =>
    have hx := hnb x (by simp)
    simp only [isBrace, Bool.or_eq_false_iff, beq_eq_false_iff_ne, ne_eq] at hx
    exact ⟨fun hopen => absurd hopen hx.1, ih fun y hy => hnb y (by simp [hy])⟩

/-- The braces inside a stretch that exactly closes some open blocks are all matched there. -/
theorem allClosed_of_closingLength {d : Nat} {xs ts : List Token}
    (h : closingLength d (xs ++ ts) = some xs.length) (hts : AllClosed ts) :
    AllClosed (xs ++ ts) := by
  induction xs generalizing d with
  | nil => exact hts
  | cons x xs ih =>
    cases d with
    | zero => simp at h
    | succ d =>
      rw [List.cons_append, closingLength_succ_cons] at h
      obtain ⟨k, hk, hkx⟩ := Option.map_eq_some_iff.1 h
      simp only [List.length_cons, Nat.add_right_cancel_iff] at hkx
      subst hkx
      refine ⟨fun hopen => ?_, ih hk⟩
      rw [afterToken_open hopen] at hk
      have hk' : closingLength (d + 1 + 1) (xs ++ ts) = some xs.length := hk
      have hsome : (closingLength 1 (xs ++ ts)).isSome := closingLength_one_isSome (by rw [hk']; rfl)
      exact hsome

theorem allClosed_of_nonBrace {ts : List Token} (h : ∀ x ∈ ts, isBrace x = false) :
    AllClosed ts := by
  have hall : AllClosed (ts ++ []) := allClosed_nonBrace h trivial
  simpa using hall

theorem LastUnclosed.append {ts : List Token} {o : Token} (pre : List Token)
    (h : LastUnclosed ts o) : LastUnclosed (pre ++ ts) o := by
  obtain ⟨pre', post, rfl, hopen, hnone, hall⟩ := h
  exact ⟨pre ++ pre', post, by simp, hopen, hnone, hall⟩

/-! ## What the reader of a block consumes -/

theorem nonBrace_of_dropWhile_eq_nil {ts : List Token}
    (h : ts.dropWhile (fun t => !isBrace t) = []) : ∀ x ∈ ts, isBrace x = false := by
  obtain ⟨nb, hts, hnb⟩ := dropWhile_not_isBrace ts
  rw [h, List.append_nil] at hts
  rw [hts]
  exact hnb

/-- The next brace of `ts`, after tokens that are none. -/
theorem eq_of_dropWhile_eq_cons {ts rest : List Token} {t : Token}
    (h : ts.dropWhile (fun t => !isBrace t) = t :: rest) :
    ∃ nb, ts = nb ++ t :: rest ∧ (∀ x ∈ nb, isBrace x = false) ∧ isBrace t = true := by
  obtain ⟨nb, hts, hnb⟩ := dropWhile_not_isBrace ts
  have hhead := List.head?_dropWhile_not (fun t => !isBrace t) ts
  rw [h] at hts hhead
  exact ⟨nb, hts, hnb, by simpa using hhead⟩

theorem open_of_isBrace {t : Token} (h : isBrace t = true)
    (hne : ¬ t.kind = .closingCurlyBrace) : t.kind = .openingCurlyBrace := by
  simp only [isBrace, Bool.or_eq_true, beq_iff_eq] at h
  exact h.resolve_right hne

section Items

variable {strict : Bool} {m : Nat} {fin : Span}

/-- A block reaches to the `}` that closes it, or to the end of the tokens when none does. -/
theorem items_rest {d : Nat} {o : Token} {ch : Array Block} {u ts : List Token} {b : Body ts}
    (h : Body.items strict m fin d o ch u ts = .ok b) :
    b.rest.1 = ts.drop ((closingLength 1 ts).getD ts.length) := by
  fun_induction Body.items strict m fin d o ch u ts with
  | case1 => cases h
  | case2 _ _ _ _ ts hnil =>
    cases h
    rw [closingLength_one_of_nonBrace (nonBrace_of_dropWhile_eq_nil hnil)]
    simp
  | case3 _ _ _ _ ts t rest hcons hclose =>
    cases h
    obtain ⟨nb, rfl, hnb, -⟩ := eq_of_dropWhile_eq_cons hcons
    rw [closingLength_nonBrace _ hnb, closingLength_one_close hclose]
    simp
  | case4 => cases h
  | case5 => cases h
  | case6 => cases h
  | case7 _ _ _ _ ts t rest hcons hclose _ c hc b' hb' ihc ihb =>
    cases h
    obtain ⟨nb, rfl, hnb, hbrace⟩ := eq_of_dropWhile_eq_cons hcons
    show b'.rest.1 = _
    rw [ihb hb', ihc hc, closingLength_nonBrace _ hnb,
      closingLength_one_open (open_of_isBrace hbrace hclose)]
    -- the nested block either reaches the end of the tokens, or closes after `k` of them and
    -- the enclosing block goes on from there
    rcases hk : closingLength 1 rest with _ | k
    · simp
    · rcases hk' : closingLength 1 (rest.drop k) with _ | k'
      · have hle := closingLength_le_length hk
        simp [hk']
        omega
      · simp [hk', List.drop_drop]

/-- Reading a block only adds open braces to those it was given: none when the block closes,
    and otherwise at least its own opener. -/
theorem items_unclosed {d : Nat} {o : Token} {ch : Array Block} {u ts : List Token}
    {b : Body ts} (h : Body.items strict m fin d o ch u ts = .ok b) :
    ∃ extra, b.unclosed = u ++ extra ∧ (extra = [] ↔ (closingLength 1 ts).isSome) := by
  fun_induction Body.items strict m fin d o ch u ts with
  | case1 => cases h
  | case2 _ _ _ _ ts hnil =>
    cases h
    refine ⟨_, rfl, ?_⟩
    simp [closingLength_one_of_nonBrace (nonBrace_of_dropWhile_eq_nil hnil)]
  | case3 _ _ _ _ ts t rest hcons hclose =>
    cases h
    obtain ⟨nb, rfl, hnb, -⟩ := eq_of_dropWhile_eq_cons hcons
    refine ⟨[], by simp, ?_⟩
    simp [closingLength_nonBrace _ hnb, closingLength_one_close hclose]
  | case4 => cases h
  | case5 => cases h
  | case6 => cases h
  | case7 _ _ _ u ts t rest hcons hclose _ c hc b' hb' ihc ihb =>
    cases h
    obtain ⟨nb, rfl, hnb, hbrace⟩ := eq_of_dropWhile_eq_cons hcons
    obtain ⟨ec, hec, hecnil⟩ := ihc hc
    obtain ⟨e', he', he'nil⟩ := ihb hb'
    refine ⟨ec ++ e', by simp [he', hec], ?_⟩
    rw [closingLength_nonBrace _ hnb, closingLength_one_open (open_of_isBrace hbrace hclose)]
    rcases hk : closingLength 1 rest with _ | k
    · -- the nested block stays open, so the enclosing one does too
      have hne : ec ≠ [] := fun hnil => by simp [hk] at hecnil; exact hecnil hnil
      simp [hne]
    · have hnil : ec = [] := hecnil.2 (by simp [hk])
      rw [items_rest hc, hk] at he'nil
      simpa [hnil] using he'nil

/-- Lenient reading never fails once the tokens are used up. -/
theorem items_lenient_nil (d : Nat) (o : Token) (ch : Array Block) (u : List Token) :
    Body.items false m fin d o ch u [] =
      .ok ⟨⟨ch.toList, false, some (o.span.merge fin)⟩, u ++ [o], ⟨[], Nat.zero_le _⟩⟩ := by
  rw [Body.items]
  rfl

/-- Strict reading succeeds with the same tree when lenient reading leaves no brace open, and
    otherwise fails at the innermost brace left open. -/
theorem items_strict {d : Nat} {o : Token} {ch : Array Block} {u ts : List Token}
    {b : Body ts} (h : Body.items false m fin d o ch u ts = .ok b) :
    Body.items true m fin d o ch [] ts = match b.unclosed.drop u.length with
      | [] => .ok ⟨b.block, [], b.rest⟩
      | o' :: _ => .error (unclosedHalt o') := by
  fun_induction Body.items false m fin d o ch u ts with
  | case1 => contradiction
  | case2 _ _ _ u ts hnil =>
    cases h
    rw [Body.items]
    split
    · simp
    · next heq => simp [hnil] at heq
  | case3 _ _ _ u ts t rest hcons hclose =>
    cases h
    rw [Body.items]
    split
    · next heq => simp [hcons] at heq
    · next heq =>
      rw [hcons] at heq
      obtain ⟨rfl, rfl⟩ := List.cons.inj heq
      rw [if_pos hclose]
      simp
  | case4 => cases h
  | case5 => cases h
  | case6 => cases h
  | case7 _ _ _ u ts t rest hcons hclose hdepth c hc b' hb' ihc ihb =>
    cases h
    rw [Body.items]
    split
    · next heq => simp [hcons] at heq
    · next heq =>
      rw [hcons] at heq
      obtain ⟨rfl, rfl⟩ := List.cons.inj heq
      rw [if_neg hclose, if_neg hdepth, ihc hc]
      obtain ⟨e', he', -⟩ := items_unclosed hb'
      -- a nested block that closed is read alike in both modes; one left open makes strict
      -- reading stop at its innermost brace, the first that the enclosing block adds
      rcases hcu : c.unclosed with _ | ⟨c', cs⟩
      · have hcont := ihb hb'
        simp only [hcu, List.append_nil] at hcont he'
        simp only [List.length_nil, List.drop_zero, List.append_nil, hcont]
        rw [he', List.drop_left]
        cases e' <;> rfl
      · simp [he', hcu]

/-- Where lenient reading fails, strict reading fails the same way. -/
theorem items_strict_error {d : Nat} {o : Token} {ch : Array Block} {u ts : List Token}
    {e : SyntaxError × LogEvent} (h : Body.items false m fin d o ch u ts = .error e) :
    Body.items true m fin d o ch [] ts = .error e := by
  fun_induction Body.items false m fin d o ch u ts with
  | case1 => contradiction
  | case2 => cases h
  | case3 => cases h
  | case4 _ _ _ u ts t rest hcons hclose hdepth =>
    cases h
    rw [Body.items]
    split
    · next heq => simp [hcons] at heq
    · next heq =>
      rw [hcons] at heq
      obtain ⟨rfl, rfl⟩ := List.cons.inj heq
      rw [if_neg hclose, if_pos hdepth]
  | case5 _ _ _ u ts t rest hcons hclose hdepth e' hc ihc =>
    cases h
    rw [Body.items]
    split
    · next heq => simp [hcons] at heq
    · next heq =>
      rw [hcons] at heq
      obtain ⟨rfl, rfl⟩ := List.cons.inj heq
      rw [if_neg hclose, if_neg hdepth, ihc hc]
  | case6 _ _ _ u ts t rest hcons hclose hdepth c hc e' hb' ihc ihb =>
    cases h
    rw [Body.items]
    split
    · next heq => simp [hcons] at heq
    · next heq =>
      rw [hcons] at heq
      obtain ⟨rfl, rfl⟩ := List.cons.inj heq
      rw [if_neg hclose, if_neg hdepth, items_strict hc]
      obtain ⟨ec, hec, hecnil⟩ := items_unclosed hc
      rcases hcu : c.unclosed with _ | ⟨c', cs⟩
      · simp only [List.length_nil, List.drop_zero, List.append_nil]
        rw [ihb hb']
      · -- a nested block left open used up the tokens, where lenient reading cannot fail
        exfalso
        have hne : ec ≠ [] := by
          intro hnil
          rw [hnil, hcu] at hec
          simp at hec
        have hnone : closingLength 1 rest = none := by
          simpa using mt hecnil.2 hne
        have hrest : c.rest.1 = [] := by
          rw [items_rest hc, hnone]
          simp
        rw [hrest, items_lenient_nil] at hb'
        cases hb'
  | case7 => cases h

/-- The tree of a block is well formed exactly when the children it was given are and reading
    it left no brace open. -/
theorem items_wellFormed {d : Nat} {o : Token} {ch : Array Block} {u ts : List Token}
    {b : Body ts} (h : Body.items strict m fin d o ch u ts = .ok b) :
    b.block.isWellFormed = true ↔ Block.allWellFormed ch.toList = true ∧ b.unclosed = u := by
  fun_induction Body.items strict m fin d o ch u ts with
  | case1 => cases h
  | case2 =>
    cases h
    simp [Block.isWellFormed]
  | case3 =>
    cases h
    simp [Block.isWellFormed]
  | case4 => cases h
  | case5 => cases h
  | case6 => cases h
  | case7 _ _ ch u ts t rest hcons hclose hdepth c hc b' hb' ihc ihb =>
    cases h
    obtain ⟨e', he', -⟩ := items_unclosed hb'
    have hchild : c.block.isWellFormed = true ↔ c.unclosed = [] := by
      simpa [Block.allWellFormed] using ihc hc
    show b'.block.isWellFormed = true ↔ _ ∧ b'.unclosed = u
    rw [ihb hb', Array.toList_push, Block.allWellFormed_append_singleton, Bool.and_eq_true,
      hchild, he']
    simp [and_assoc]

/-- The innermost brace a lenient reading leaves open is the last `{` of the text that no `}`
    after it closes. -/
theorem items_lastUnclosed {d : Nat} {o : Token} {ch : Array Block} {u ts : List Token}
    {b : Body ts} (h : Body.items false m fin d o ch u ts = .ok b)
    (ho : o.kind = .openingCurlyBrace) {o' : Token} {more : List Token}
    (hu : b.unclosed = u ++ o' :: more) : LastUnclosed (o :: ts) o' := by
  fun_induction Body.items false m fin d o ch u ts generalizing o' more with
  | case1 => contradiction
  | case2 _ o _ u ts hnil =>
    cases h
    obtain ⟨rfl, -⟩ := List.cons.inj (List.append_cancel_left hu)
    have hnb := nonBrace_of_dropWhile_eq_nil hnil
    exact ⟨[], ts, rfl, ho, closingLength_one_of_nonBrace hnb, allClosed_of_nonBrace hnb⟩
  | case3 =>
    cases h
    have hlen := congrArg List.length hu
    simp at hlen
  | case4 => cases h
  | case5 => cases h
  | case6 => cases h
  | case7 _ o _ u ts t rest hcons hclose hdepth c hc b' hb' ihc ihb =>
    cases h
    obtain ⟨nb, rfl, hnb, hbrace⟩ := eq_of_dropWhile_eq_cons hcons
    have ht := open_of_isBrace hbrace hclose
    obtain ⟨e', he', -⟩ := items_unclosed hb'
    rcases hcu : c.unclosed with _ | ⟨c', cs⟩
    · -- the nested block closed, so the brace left open lies after it
      obtain ⟨ec, hec, hecnil⟩ := items_unclosed hc
      obtain ⟨k, hk⟩ := Option.isSome_iff_exists.1 (hecnil.1 (by simpa [hcu] using hec.symm))
      have hrest : c.rest.1 = rest.drop k := by
        rw [items_rest hc, hk]
        rfl
      have hlast := ihb hb' ho (by rw [hcu, List.append_nil]; exact hu)
      rw [hrest] at hlast
      obtain ⟨pre, post, hsplit, hopen, hnone, hall⟩ := hlast
      cases pre with
      | nil =>
        obtain ⟨rfl, rfl⟩ := List.cons.inj hsplit
        refine ⟨[], nb ++ t :: rest, rfl, ho, ?_, allClosed_nonBrace hnb ⟨fun _ => by simp [hk], ?_⟩⟩
        · rw [closingLength_nonBrace _ hnb, closingLength_one_open ht, hk]
          simp [hnone]
        · have hlen : (rest.take k).length = k := List.length_take_of_le (closingLength_le_length hk)
          rw [← List.take_append_drop k rest]
          exact allClosed_of_closingLength (by rw [List.take_append_drop, hk, hlen]) hall
      | cons x pre =>
        obtain ⟨rfl, htail⟩ := List.cons.inj hsplit
        have hlast : LastUnclosed (rest.drop k) o' := ⟨pre, post, htail, hopen, hnone, hall⟩
        have happ := hlast.append (o :: nb ++ t :: rest.take k)
        simpa using happ
    · -- the nested block stayed open, and its innermost open brace comes first
      have hcu' : c.unclosed = [] ++ c' :: cs := by rw [hcu, List.nil_append]
      have hchild := ihc hc ht hcu'
      rw [he', hcu, List.append_assoc, List.cons_append] at hu
      obtain ⟨rfl, -⟩ := List.cons.inj (List.append_cancel_left hu)
      have happ := hchild.append (o :: nb)
      simpa using happ

end Items

/-! ## Entering a body -/

section Enter

variable {strict : Bool} {m : Nat} {fin : Span} {d : Nat} {o : Token} {ts : List Token}

theorem items_of_enter {b : Body ts} (h : Body.enter strict m fin d o ts = .ok b) :
    Body.items strict m fin d o #[] [] ts = .ok b := by
  unfold Body.enter at h
  split at h
  · cases h
  · exact h

theorem enter_rest {b : Body ts} (h : Body.enter strict m fin d o ts = .ok b) :
    b.rest.1 = ts.drop ((closingLength 1 ts).getD ts.length) :=
  items_rest (items_of_enter h)

/-- What follows a body is what is left of the tokens after it. -/
theorem enter_rest_suffix {b : Body ts} (h : Body.enter strict m fin d o ts = .ok b) :
    ∃ pre, ts = pre ++ b.rest.1 := by
  refine ⟨ts.take ((closingLength 1 ts).getD ts.length), ?_⟩
  rw [enter_rest h, List.take_append_drop]

/-- A body is well formed exactly when reading it left no brace open. -/
theorem enter_wellFormed {b : Body ts} (h : Body.enter strict m fin d o ts = .ok b) :
    b.block.isWellFormed = true ↔ b.unclosed = [] := by
  simpa [Block.allWellFormed] using items_wellFormed (items_of_enter h)

/-- A body that leaves a brace open reaches to the end of the tokens. -/
theorem enter_rest_of_unclosed {b : Body ts} (h : Body.enter strict m fin d o ts = .ok b)
    (hu : b.unclosed ≠ []) : b.rest.1 = [] := by
  obtain ⟨extra, hextra, hnil⟩ := items_unclosed (items_of_enter h)
  have hnone : closingLength 1 ts = none := by
    simpa [hextra] using mt hnil.2 (by simpa [hextra] using hu)
  rw [enter_rest h, hnone]
  simp

/-- Strict reading of a body returns what lenient reading does when no brace is left open,
    and otherwise fails at the innermost brace left open. -/
theorem enter_strict {b : Body ts} (h : Body.enter false m fin d o ts = .ok b) :
    Body.enter true m fin d o ts = match b.unclosed with
      | [] => .ok ⟨b.block, [], b.rest⟩
      | o' :: _ => .error (unclosedHalt o') := by
  have hstrict := items_strict (items_of_enter h)
  simp only [List.length_nil, List.drop_zero] at hstrict
  unfold Body.enter at h ⊢
  split at h
  · cases h
  · next hd => rw [if_neg hd, hstrict]

theorem enter_strict_error {e : SyntaxError × LogEvent} (h : Body.enter false m fin d o ts = .error e) :
    Body.enter true m fin d o ts = .error e := by
  unfold Body.enter at h ⊢
  split at h
  · next hd => rw [if_pos hd, h]
  · next hd => rw [if_neg hd, items_strict_error h]

/-- The innermost brace a lenient body leaves open is the last `{` of the text from its opener
    on that nothing after it closes. -/
theorem enter_lastUnclosed {b : Body ts} (h : Body.enter false m fin d o ts = .ok b)
    (ho : o.kind = .openingCurlyBrace) {o' : Token} {more : List Token}
    (hu : b.unclosed = o' :: more) : LastUnclosed (o :: ts) o' :=
  items_lastUnclosed (items_of_enter h) ho (by rw [hu, List.nil_append])

end Enter

end Analysis

end COutline
