import Mathlib.Logic.Function.Iterate
import COutline.Proofs.Analysis.Blocks
import COutline.Proofs.Analysis.Scan

/-!
# The analysis as loops over a cursor

`scan` and the reader of a body, `Body.items`, are recursive.  The analyzer they describe runs a
top-level loop over a cursor into the token stream and reads each body with a loop of its own,
one nested call per open block.  `Loop` is that analyzer with its calls made explicit: a state
is the top-level loop at a cursor, a body being read with the stack of its open blocks, or the
stopped analysis with its result, and `Loop.next` is one iteration of the innermost running
loop.

Every iteration takes at least one token; only at the end of the input does a step take none,
and then it leaves a loop: it closes the innermost block or stops (`next_progress`).  No more
blocks are open at once than the depth limit allows (`depth_next_le`).  Reading a body is
`Body.items` (`items_reaches`) and the top-level loop is `scan` (`scan_reaches`), so from a
stream `ts` the loops stop within `2 * ts.length + 1` iterations with the result of `scan`, and
on success with the cursor at the end of the stream (`analysis_loop_ends`).
-/

namespace COutline

namespace Analysis

/-- The signature whose body is being read: its type, its name and its closing parenthesis. -/
structure Head where
  type : Token
  name : Token
  close : Token

/-- A block being read: its opening brace, the blocks read inside it so far, and the braces those
    left open. -/
structure Frame where
  opener : Token
  children : Array Block
  unclosed : List Token

/-- The state of the analyzer between two iterations. -/
inductive Loop where
  /-- The top-level loop, at the tokens `ts`. -/
  | scanning (f : Findings) (ts : List Token)
  /-- The body of `head` is being read at the tokens `ts`; `top` is the innermost open block and
      `outer` the blocks around it, innermost first. -/
  | reading (f : Findings) (head : Head) (top : Frame) (outer : List Frame) (ts : List Token)
  /-- The analysis stopped, with the tokens `ts` not read. -/
  | halted (ts : List Token) (result : Except (SyntaxError × Findings) Findings)

namespace Loop

variable (r : Run)

/-- Hand the finished block `b`, which left the braces `u` open, to what waits for it: the block
    around it, or, for the body itself, the definition, which is recorded before the top-level
    loop goes on. -/
def close (f : Findings) (head : Head) (b : Block) (u : List Token) (ts : List Token) :
    List Frame → Loop
  | [] =>
    let header := signatureHeader head.type head.name head.close
    let f := (u.foldl (fun f o => f.note (unclosedEvent o)) f).note
      (recognizedEvent r head.type header)
    match record r f ⟨header, b⟩ with
    | .error e => .halted ts (.error e)
    | .ok f => .scanning f ts
  | p :: outer => .reading f head ⟨p.opener, p.children.push b, p.unclosed ++ u⟩ outer ts

/-- One iteration of the innermost running loop. -/
def next : Loop → Loop
  | .halted ts result => .halted ts result
  | .scanning f [] => .halted [] (.ok f)
  | .scanning f (t :: rest) =>
    if t.kind ≠ .dataType then .scanning f rest
    else
      match lead t rest with
      | .skip message at_ rest' => .scanning (skipped r f message at_) rest'
      | .signature n _ c o inBody =>
        -- the body's own block is entered at nesting index 0
        if 0 ≥ r.settings.maxDepth then
          .halted inBody (.error (f.halt (tooDeepHalt r.settings.maxDepth 0 o)))
        else .reading f ⟨t, n, c⟩ ⟨o, #[], []⟩ [] inBody
  | .reading f head top outer [] =>
    if r.settings.mode.isStrict then
      .halted [] (.error (f.halt (unclosedHalt top.opener)))
    else
      close r f head ⟨top.children.toList, false, some (top.opener.span.merge r.finish)⟩
        (top.unclosed ++ [top.opener]) [] outer
  | .reading f head top outer (t :: rest) =>
    if isBrace t = false then .reading f head top outer rest
    else if t.kind = .closingCurlyBrace then
      close r f head ⟨top.children.toList, true, some (top.opener.span.merge t.span)⟩
        top.unclosed rest outer
    -- the block `t` opens sits inside `outer.length + 1` others
    else if outer.length + 1 ≥ r.settings.maxDepth then
      .halted rest (.error (f.halt (tooDeepHalt r.settings.maxDepth (outer.length + 1) t)))
    else .reading f head ⟨t, #[], []⟩ (top :: outer) rest

/-- The tokens not read yet. -/
def cursor : Loop → List Token
  | .scanning _ ts => ts
  | .reading _ _ _ _ ts => ts
  | .halted ts _ => ts

/-- The blocks open, each read by a call of its own. -/
def depth : Loop → Nat
  | .reading _ _ _ outer _ => outer.length + 1
  | _ => 0

/-- Whether the analysis still runs. -/
def running : Loop → Bool
  | .halted _ _ => false
  | _ => true

/-- Twice the tokens left, and one for each running loop: a bound on the iterations to come. -/
def left : Loop → Nat
  | .scanning _ ts => 2 * ts.length + 1
  | .reading _ _ _ outer ts => 2 * ts.length + outer.length + 2
  | .halted _ _ => 0

/-! ## Handing a block back -/

section Close

variable {r} {f : Findings} {head : Head} {b : Block} {u ts : List Token}

@[simp] theorem cursor_close (outer : List Frame) : (close r f head b u ts outer).cursor = ts := by
  cases outer with
  | nil => simp only [close]; split <;> rfl
  | cons p outer => rfl

@[simp] theorem depth_close (outer : List Frame) :
    (close r f head b u ts outer).depth = outer.length := by
  cases outer with
  | nil => simp only [close]; split <;> rfl
  | cons p outer => rfl

theorem left_close (outer : List Frame) :
    (close r f head b u ts outer).left ≤ 2 * ts.length + outer.length + 1 := by
  cases outer with
  | nil => simp only [close]; split <;> simp [left]
  | cons p outer => simp only [close, left, List.length_cons]; omega

end Close

/-! ## One iteration -/

section Step

variable {r}

@[simp] theorem next_halted (ts : List Token) (res : Except (SyntaxError × Findings) Findings) :
    next r (.halted ts res) = .halted ts res := rfl

theorem iterate_halted (k : Nat) (ts : List Token)
    (res : Except (SyntaxError × Findings) Findings) :
    (next r)^[k] (.halted ts res) = .halted ts res :=
  Function.iterate_fixed (next_halted ts res) k

section Brace

variable {f : Findings} {head : Head} {top : Frame} {outer : List Frame} {t : Token}
  {rest : List Token}

/-- At a `}` the innermost block is closed and handed back. -/
theorem next_closing (hc : t.kind = .closingCurlyBrace) :
    next r (.reading f head top outer (t :: rest)) =
      close r f head ⟨top.children.toList, true, some (top.opener.span.merge t.span)⟩
        top.unclosed rest outer := by
  have hb : isBrace t = true := by simp [isBrace, hc]
  simp [next, hb, hc]

/-- At a `{` below the depth limit a nested block is opened. -/
theorem next_opening (ho : t.kind = .openingCurlyBrace)
    (hm : ¬ outer.length + 1 ≥ r.settings.maxDepth) :
    next r (.reading f head top outer (t :: rest)) =
      .reading f head ⟨t, #[], []⟩ (top :: outer) rest := by
  have hb : isBrace t = true := by simp [isBrace, ho]
  simp [next, hb, ho, hm]

/-- At a `{` that would nest one block too many the analysis stops, past that brace. -/
theorem next_tooDeep (ho : t.kind = .openingCurlyBrace)
    (hm : outer.length + 1 ≥ r.settings.maxDepth) :
    next r (.reading f head top outer (t :: rest)) =
      .halted rest (.error (f.halt (tooDeepHalt r.settings.maxDepth (outer.length + 1) t))) := by
  have hb : isBrace t = true := by simp [isBrace, ho]
  simp [next, hb, ho, hm]

end Brace

/-- Each iteration reads on from where the last one stopped: it takes at least one token, or,
    at the end of the input, leaves a loop, closing the innermost block or stopping. -/
theorem next_progress (st : Loop) (h : st.running) :
    (next r st).cursor <:+ st.cursor ∧
      ((next r st).cursor.length < st.cursor.length ∨
        st.cursor = [] ∧ ((next r st).depth < st.depth ∨ (next r st).running = false)) := by
  cases st with
  | halted ts res => cases h
  | scanning f ts =>
    cases ts with
    | nil => exact ⟨List.suffix_refl _, Or.inr ⟨rfl, Or.inr rfl⟩⟩
    | cons t rest =>
      -- the cursor moves past `t` and whatever the signature test took after it
      suffices hsuf : (next r (.scanning f (t :: rest))).cursor <:+ rest by
        exact ⟨hsuf.trans (List.suffix_cons t rest),
          Or.inl (Nat.lt_of_le_of_lt hsuf.length_le (Nat.lt_succ_self _))⟩
      by_cases ht : t.kind ≠ .dataType
      · simp only [next, if_pos ht, cursor]
        exact List.suffix_refl _
      · cases hl : lead t rest with
        | skip message at_ rest' =>
          obtain ⟨pre, hrest, -⟩ := lead_eq_skip hl
          simp only [next, if_neg ht, hl, cursor]
          exact ⟨pre, hrest.symm⟩
        | signature n p c o inBody =>
          obtain ⟨rfl, -⟩ := lead_eq_signature_iff.1 hl
          simp only [next, if_neg ht, hl]
          split <;> exact ⟨[n, p, c, o], rfl⟩
  | reading f head top outer ts =>
    cases ts with
    | nil =>
      -- at the end of the input the block is closed, or the strict analysis stops
      have hc : (next r (.reading f head top outer [])).cursor = [] := by
        simp only [next]
        split
        · rfl
        · exact cursor_close outer
      refine ⟨by rw [hc]; exact List.nil_suffix, Or.inr ⟨rfl, ?_⟩⟩
      simp only [next]
      split
      · exact Or.inr rfl
      · exact Or.inl (by rw [depth_close]; simp [depth])
    | cons t rest =>
      suffices hc : (next r (.reading f head top outer (t :: rest))).cursor = rest by
        rw [hc]
        exact ⟨List.suffix_cons t rest, Or.inl (by simp [cursor])⟩
      simp only [next]
      split
      · rfl
      · split
        · exact cursor_close outer
        · split <;> rfl

/-- An iteration opens a block only below the depth limit. -/
theorem depth_next_le (st : Loop) (h : st.depth ≤ r.settings.maxDepth) :
    (next r st).depth ≤ r.settings.maxDepth := by
  cases st with
  | halted ts res => exact h
  | scanning f ts =>
    cases ts with
    | nil => exact Nat.zero_le _
    | cons t rest =>
      simp only [next]
      split
      · exact Nat.zero_le _
      · split
        · exact Nat.zero_le _
        · split
          · exact Nat.zero_le _
          · next hm => simp only [depth, List.length_nil]; omega
  | reading f head top outer ts =>
    simp only [depth] at h
    cases ts with
    | nil =>
      simp only [next]
      split
      · exact Nat.zero_le _
      · rw [depth_close]; omega
    | cons t rest =>
      simp only [next]
      split
      · exact h
      · split
        · rw [depth_close]; omega
        · split
          · exact Nat.zero_le _
          · next hm => simp only [depth, List.length_cons]; omega

/-- A running iteration leaves less to do. -/
theorem left_next_lt (st : Loop) (h : st.running) : (next r st).left < st.left := by
  cases st with
  | halted ts res => cases h
  | scanning f ts =>
    cases ts with
    | nil => simp [next, left]
    | cons t rest =>
      simp only [next]
      split
      · simp only [left, List.length_cons]; omega
      · split
        · next message at_ rest' hl =>
          have := lead_skip_length hl
          simp only [left, List.length_cons]; omega
        · next n p c o inBody hl =>
          obtain ⟨rfl, -⟩ := lead_eq_signature_iff.1 hl
          split
          · simp [left]
          · simp only [left, List.length_cons, List.length_nil]; omega
  | reading f head top outer ts =>
    cases ts with
    | nil =>
      simp only [next]
      split
      · simp [left]
      · have : (close r f head ⟨top.children.toList, false, some (top.opener.span.merge r.finish)⟩
            (top.unclosed ++ [top.opener]) [] outer).left ≤ 2 * 0 + outer.length + 1 :=
          left_close outer
        simp only [left] at this ⊢; omega
    | cons t rest =>
      simp only [next]
      split
      · simp only [left, List.length_cons]; omega
      · split
        · have : (close r f head ⟨top.children.toList, true, some (top.opener.span.merge t.span)⟩
              top.unclosed rest outer).left ≤ 2 * rest.length + outer.length + 1 :=
            left_close outer
          simp only [left, List.length_cons] at this ⊢; omega
        · split
          · simp [left]
          · simp only [left, List.length_cons]; omega

/-- From any state the analysis stops within `st.left` iterations. -/
theorem halts_within (k : Nat) (st : Loop) (hk : st.left ≤ k) :
    ∃ cur res, (next r)^[k] st = .halted cur res := by
  induction k generalizing st with
  | zero =>
    cases st with
    | halted ts res => exact ⟨ts, res, rfl⟩
    | scanning f ts => simp [left] at hk
    | reading f head top outer ts => simp [left] at hk
  | succ k ih =>
    cases hst : st.running
    · cases st with
      | halted ts res => exact ⟨ts, res, iterate_halted _ ts res⟩
      | scanning f ts => cases hst
      | reading f head top outer ts => cases hst
    · rw [Function.iterate_succ_apply]
      exact ih _ (by have := left_next_lt (r := r) st hst; omega)

/-- The depth limit holds all along a run. -/
theorem depth_iterate_le (k : Nat) (st : Loop) (h : st.depth ≤ r.settings.maxDepth) :
    ((next r)^[k] st).depth ≤ r.settings.maxDepth := by
  induction k generalizing st with
  | zero => exact h
  | succ k ih =>
    rw [Function.iterate_succ_apply]
    exact ih _ (depth_next_le st h)

end Step

/-! ## The loops compute the recursion -/

/-- The analysis gets from `a` to `b` in some number of iterations. -/
def Reaches (a b : Loop) : Prop := ∃ k, (next r)^[k] a = b

section Reaches

variable {r}

theorem Reaches.refl (a : Loop) : Reaches r a a := ⟨0, rfl⟩

theorem Reaches.head {a b c : Loop} (h : next r a = b) (hb : Reaches r b c) : Reaches r a c := by
  obtain ⟨k, rfl⟩ := hb
  exact ⟨k + 1, by rw [Function.iterate_succ_apply, h]⟩

theorem Reaches.trans {a b c : Loop} (hab : Reaches r a b) (hbc : Reaches r b c) :
    Reaches r a c := by
  obtain ⟨k, rfl⟩ := hab
  obtain ⟨j, rfl⟩ := hbc
  exact ⟨j + k, Function.iterate_add_apply _ j k a⟩

/-- Tokens that are no brace are passed over, one an iteration. -/
theorem reaches_dropWhile (f : Findings) (head : Head) (top : Frame) (outer : List Frame)
    (ts : List Token) :
    Reaches r (.reading f head top outer ts)
      (.reading f head top outer (ts.dropWhile (fun t => !isBrace t))) := by
  induction ts with
  | nil => exact Reaches.refl _
  | cons t ts ih =>
    cases hb : isBrace t
    · rw [List.dropWhile_cons_of_pos (by simp [hb])]
      exact Reaches.head (by simp [next, hb]) ih
    · rw [List.dropWhile_cons_of_neg (by simp [hb])]
      exact Reaches.refl _

/-- The loop of a block passes over the tokens that are no brace, and then takes one iteration
    at the next brace or at the end of the input. -/
theorem Reaches.skipping {f : Findings} {head : Head} {top : Frame} {outer : List Frame}
    {ts ts' : List Token} {st' st : Loop} (hdrop : ts.dropWhile (fun t => !isBrace t) = ts')
    (hnext : next r (.reading f head top outer ts') = st') (h : Reaches r st' st) :
    Reaches r (.reading f head top outer ts) st :=
  (reaches_dropWhile f head top outer ts).trans (hdrop ▸ Reaches.head hnext h)

/-- Reading a block with the loops ends where `Body.items` ends: with the block handed back and
    the cursor after it, or stopped with its error. -/
theorem items_reaches {d : Nat} {o : Token} {ch : Array Block} {u ts : List Token}
    (f : Findings) (head : Head) (outer : List Frame) (hd : d = outer.length) :
    (∀ b, Body.items r.settings.mode.isStrict r.settings.maxDepth r.finish d o ch u ts = .ok b →
      Reaches r (.reading f head ⟨o, ch, u⟩ outer ts)
        (close r f head b.block b.unclosed b.rest.1 outer)) ∧
    (∀ e, Body.items r.settings.mode.isStrict r.settings.maxDepth r.finish d o ch u ts = .error e →
      ∃ cur, Reaches r (.reading f head ⟨o, ch, u⟩ outer ts) (.halted cur (.error (f.halt e)))) := by
  fun_induction Body.items r.settings.mode.isStrict r.settings.maxDepth r.finish d o ch u ts
    generalizing outer with
  | case1 d o ch u ts hnil hstrict =>
    refine ⟨fun b h => (by cases h), fun e h => ?_⟩
    cases h
    exact ⟨[], Reaches.skipping hnil (by simp [next, hstrict]) (Reaches.refl _)⟩
  | case2 d o ch u ts hnil hstrict =>
    refine ⟨fun b h => ?_, fun e h => by cases h⟩
    cases h
    exact Reaches.skipping hnil (by simp [next, hstrict]) (Reaches.refl _)
  | case3 d o ch u ts t rest hcons hclose =>
    refine ⟨fun b h => ?_, fun e h => by cases h⟩
    cases h
    exact Reaches.skipping hcons (next_closing hclose) (Reaches.refl _)
  | case4 d o ch u ts t rest hcons hclose hdepth =>
    refine ⟨fun b h => (by cases h), fun e h => ?_⟩
    cases h
    subst hd
    exact ⟨rest, Reaches.skipping hcons
      (next_tooDeep (open_of_dropWhile_cons hcons hclose) hdepth) (Reaches.refl _)⟩
  | case5 d o ch u ts t rest hcons hclose hdepth e hc ih =>
    refine ⟨fun b h => (by cases h), fun e' h => ?_⟩
    cases h
    -- the nested block stops the analysis with its own error
    obtain ⟨cur, hcur⟩ := (ih (⟨o, ch, u⟩ :: outer) (by simp [hd])).2 e hc
    exact ⟨cur, Reaches.skipping hcons
      (next_opening (open_of_dropWhile_cons hcons hclose) (hd ▸ hdepth)) hcur⟩
  | case6 d o ch u ts t rest hcons hclose hdepth child hc e he ihc ihb =>
    refine ⟨fun b h => (by cases h), fun e' h => ?_⟩
    cases h
    -- the nested block is handed back, and the rest of this block stops the analysis
    have hchild := (ihc (⟨o, ch, u⟩ :: outer) (by simp [hd])).1 child hc
    obtain ⟨cur, hcur⟩ := (ihb outer hd).2 e he
    exact ⟨cur, Reaches.skipping hcons
      (next_opening (open_of_dropWhile_cons hcons hclose) (hd ▸ hdepth)) (hchild.trans hcur)⟩
  | case7 d o ch u ts t rest hcons hclose hdepth child hc b' hb' ihc ihb =>
    refine ⟨fun b h => ?_, fun e h => by cases h⟩
    cases h
    have hchild := (ihc (⟨o, ch, u⟩ :: outer) (by simp [hd])).1 child hc
    have hrest := (ihb outer hd).1 b' hb'
    exact Reaches.skipping hcons
      (next_opening (open_of_dropWhile_cons hcons hclose) (hd ▸ hdepth)) (hchild.trans hrest)

/-- The top-level loop ends where `scan` ends, with its result; on success it has read every
    token. -/
theorem scan_reaches (f : Findings) (ts : List Token) :
    ∃ cur, Reaches r (.scanning f ts) (.halted cur (scan r f ts)) ∧
      ∀ g, scan r f ts = .ok g → cur = [] := by
  induction hn : ts.length using Nat.strong_induction_on generalizing f ts with
  | _ n ih =>
  cases ts with
  | nil =>
    rw [scan_nil]
    exact ⟨[], Reaches.head rfl (Reaches.refl _), fun _ _ => rfl⟩
  | cons t rest =>
    have hlt : rest.length < n := by simp [← hn]
    by_cases ht : t.kind ≠ .dataType
    · rw [scan_pass ht]
      obtain ⟨cur, hcur, hok⟩ := ih _ hlt f rest rfl
      exact ⟨cur, Reaches.head (by simp [next, ht]) hcur, hok⟩
    have hdt : t.kind = .dataType := not_not.1 ht
    cases hl : lead t rest with
    | skip message at_ rest' =>
      rw [scan_skip hdt hl]
      obtain ⟨cur, hcur, hok⟩ :=
        ih _ (Nat.lt_of_le_of_lt (lead_skip_length hl) hlt) (skipped r f message at_) rest' rfl
      exact ⟨cur, Reaches.head (by simp [next, ht, hl]) hcur, hok⟩
    | signature n' p c o inBody =>
      have hin : inBody.length < n := by
        obtain ⟨rfl, -⟩ := lead_eq_signature_iff.1 hl
        simp at hlt; omega
      by_cases hm : 0 ≥ r.settings.maxDepth
      · -- the body's own block is already too deep
        have he : Body.enter r.settings.mode.isStrict r.settings.maxDepth r.finish 0 o inBody =
            .error (tooDeepHalt r.settings.maxDepth 0 o) := by
          rw [Body.enter, if_pos hm]
        rw [scan_body_error hdt hl he]
        exact ⟨inBody, Reaches.head (by simp [next, ht, hl, hm]) (Reaches.refl _),
          fun _ h => by cases h⟩
      have hstep : next r (.scanning f (t :: rest)) =
          .reading f ⟨t, n', c⟩ ⟨o, #[], []⟩ [] inBody := by
        simp [next, ht, hl, hm]
      have henter : Body.enter r.settings.mode.isStrict r.settings.maxDepth r.finish 0 o inBody =
          Body.items r.settings.mode.isStrict r.settings.maxDepth r.finish 0 o #[] [] inBody := by
        rw [Body.enter, if_neg hm]
      cases hb : Body.items r.settings.mode.isStrict r.settings.maxDepth r.finish 0 o #[] []
          inBody with
      | error e =>
        rw [scan_body_error hdt hl (henter.trans hb)]
        obtain ⟨cur, hcur⟩ := (items_reaches f ⟨t, n', c⟩ [] rfl).2 e hb
        exact ⟨cur, Reaches.head hstep hcur, fun _ h => by cases h⟩
      | ok body =>
        rw [scan_body_ok hdt hl (henter.trans hb)]
        have hbody := (items_reaches f ⟨t, n', c⟩ [] rfl).1 body hb
        -- the body is handed to the definition, which is recorded before the scan goes on
        simp only [close] at hbody
        split at hbody
        · next e hrec =>
          rw [hrec]
          exact ⟨body.rest.1, Reaches.head hstep hbody, fun _ h => by cases h⟩
        · next g hrec =>
          rw [hrec]
          obtain ⟨cur, hcur, hok⟩ :=
            ih _ (Nat.lt_of_le_of_lt body.rest.2 hin) g body.rest.1 rfl
          exact ⟨cur, Reaches.head hstep (hbody.trans hcur), hok⟩

/-- Once the analysis stops it stays stopped, so a stopping run has stopped after `st.left`
    iterations, in the state it reaches. -/
theorem iterate_left_eq {st : Loop} {cur : List Token}
    {res : Except (SyntaxError × Findings) Findings} (h : Reaches r st (.halted cur res)) {k : Nat}
    (hk : st.left ≤ k) : (next r)^[k] st = .halted cur res := by
  obtain ⟨j, hj⟩ := h
  obtain ⟨cur', res', hend⟩ := halts_within k st hk
  calc (next r)^[k] st
      = (next r)^[j] ((next r)^[k] st) := by rw [hend, iterate_halted]
    _ = (next r)^[k] ((next r)^[j] st) := by
        rw [← Function.iterate_add_apply, ← Function.iterate_add_apply, Nat.add_comm]
    _ = .halted cur res := by rw [hj, iterate_halted]

end Reaches

end Loop

/-- The analysis terminates: run as loops over a cursor into the stream `ts`, it stops within
    `2 * ts.length + 1` iterations with the result of `scan`, and when it succeeds it has read
    every token.  Along the way no more blocks are open than the depth limit allows, and every
    iteration takes at least one token, except that at the end of the input a step leaves a
    loop: it closes the innermost block or stops. -/
theorem analysis_loop_ends (r : Run) (f : Findings) (ts : List Token) :
    (∃ cur, (Loop.next r)^[2 * ts.length + 1] (.scanning f ts) = .halted cur (scan r f ts) ∧
      ∀ g, scan r f ts = .ok g → cur = []) ∧
    ∀ k st, (Loop.next r)^[k] (.scanning f ts) = st →
      st.depth ≤ r.settings.maxDepth ∧
      (st.running → (Loop.next r st).cursor <:+ st.cursor ∧
        ((Loop.next r st).cursor.length < st.cursor.length ∨
          st.cursor = [] ∧
            ((Loop.next r st).depth < st.depth ∨ (Loop.next r st).running = false))) := by
  refine ⟨?_, fun k st hst => ⟨?_, Loop.next_progress st⟩⟩
  · obtain ⟨cur, hreach, hok⟩ := Loop.scan_reaches (r := r) f ts
    exact ⟨cur, Loop.iterate_left_eq hreach (by simp [Loop.left]), hok⟩
  · rw [← hst]
    exact Loop.depth_iterate_le k _ (Nat.zero_le _)

end Analysis

end COutline
