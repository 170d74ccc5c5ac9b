import COutline.Analysis.Basic
import COutline.Proofs.Analysis.Braces
import Mathlib.Data.List.Forall2

/-!
# The brace tree of a block

A `{` is matched by the first `}` after it at which the braces between them balance
(`Matches`), and `closingLength` counts exactly up to that `}` (`closingLength_eq_some_iff`).
The `{`s a block reads are listed by `openings`, in stream order (`openings_ordered`), each with
its nesting level: the block's own brace is level 1 and its direct children are level 2, and a
`{` is at level `L` when the braces between the block's brace and it leave `L - 1` blocks open
(`mem_openings_iff`).

Read leniently, a block fails only at the first `{` whose level carries the nesting index past
the limit (`items_error`, `items_ok_levels`).  Otherwise its tree is read off the openings: its
children are the blocks read at its level-2 openings, in order (`items_children`); it is
terminated when its own brace is matched (`items_terminated`) and spans from that brace to the
matching `}` or to the end (`items_span`); it holds one nested block per opening
(`items_nestedCount`) and its depth is the deepest level (`items_depth`).  For the `{` at any
index of a token sequence, `lenient_block_at_brace` puts these together.
-/

namespace COutline

namespace Analysis

/-! ## Matching braces -/

/-- `+1` for a `{`, `-1` for a `}`, `0` for every other token. -/
def braceDelta (t : Token) : Int :=
  if t.kind = .openingCurlyBrace then 1 else if t.kind = .closingCurlyBrace then -1 else 0

/-- Opening minus closing braces. -/
def braceBalance (ts : List Token) : Int := ts.foldr (fun t n => braceDelta t + n) 0

@[simp] theorem braceBalance_nil : braceBalance [] = 0 := rfl

@[simp] theorem braceBalance_cons (t : Token) (ts : List Token) :
    braceBalance (t :: ts) = braceDelta t + braceBalance ts := rfl

theorem braceDelta_open {t : Token} (h : t.kind = .openingCurlyBrace) : braceDelta t = 1 := by
  simp [braceDelta, h]

/-- Reading a token moves the number of open blocks by the token's brace delta. -/
theorem afterToken_eq_add_delta (d : Nat) (t : Token) :
    (afterToken d t : Int) = d + 1 + braceDelta t := by
  unfold afterToken braceDelta
  split
  · omega
  · split <;> omega

/-- The `}` at `j` matches the `{` at `i`: `j` is the first index after `i` at which the braces
    of `ts[i..=j]` balance. -/
def Matches (ts : List Token) (i j : Nat) : Prop :=
  i < j ∧ j < ts.length ∧ braceBalance (ts.extract i (j + 1)) = 0 ∧
    ∀ j', i ≤ j' → j' < j → braceBalance (ts.extract i (j' + 1)) ≠ 0

/-- With no block open, nothing needs to be read. -/
theorem closingLength_zero_eq_some_iff (ts : List Token) (k : Nat) :
    closingLength 0 ts = some k ↔ k ≤ ts.length ∧ ((0 : Nat) : Int) + braceBalance (ts.take k) = 0 ∧
      ∀ k' < k, ((0 : Nat) : Int) + braceBalance (ts.take k') ≠ 0 := by
  rw [closingLength_zero, Option.some.injEq]
  constructor
  · rintro rfl
    exact ⟨Nat.zero_le _, by simp, fun k' hk' => absurd hk' (Nat.not_lt_zero _)⟩
  · rintro ⟨-, -, hmin⟩
    -- before any token nothing is open, so the count is already balanced at `0`
    rcases Nat.eq_zero_or_pos k with rfl | hk
    · rfl
    · exact absurd (by simp) (hmin 0 hk)

/-- `closingLength d` stops at the first point where the braces read close the `d` open
    blocks. -/
theorem closingLength_eq_some_iff (d : Nat) (ts : List Token) (k : Nat) :
    closingLength d ts = some k ↔ k ≤ ts.length ∧ (d : Int) + braceBalance (ts.take k) = 0 ∧
      ∀ k' < k, (d : Int) + braceBalance (ts.take k') ≠ 0 := by
  induction ts generalizing d k with
  | nil =>
    cases d with
    | zero => exact closingLength_zero_eq_some_iff [] k
    | succ d =>
      simp only [closingLength_succ_nil, reduceCtorEq, false_iff, List.length_nil,
        List.take_nil, braceBalance_nil]
      omega
  | cons t ts ih =>
    cases d with
    | zero => exact closingLength_zero_eq_some_iff _ k
    | succ d =>
      have hafter := afterToken_eq_add_delta d t
      rw [closingLength_succ_cons, Option.map_eq_some_iff]
      constructor
      · rintro ⟨j, hj, rfl⟩
        obtain ⟨hle, hbal, hmin⟩ := (ih _ _).1 hj
        refine ⟨by simpa using hle, ?_, fun k' hk' => ?_⟩
        · rw [List.take_succ_cons, braceBalance_cons]
          omega
        · cases k' with
          | zero => simp; omega
          | succ k' =>
            have := hmin k' (by omega)
            rw [List.take_succ_cons, braceBalance_cons]
            omega
      · rintro ⟨hle, hbal, hmin⟩
        cases k with
        | zero => simp at hbal; omega
        | succ j =>
          refine ⟨j, (ih _ _).2 ⟨by simpa using hle, ?_, fun k' hk' => ?_⟩, rfl⟩
          · rw [List.take_succ_cons, braceBalance_cons] at hbal
            omega
          · have := hmin (k' + 1) (by omega)
            rw [List.take_succ_cons, braceBalance_cons] at this
            omega

/-- From a `{`, the slice up to `j'` is the brace followed by the next `j' - i` tokens. -/
theorem extract_of_open {ts : List Token} {i : Nat} {o : Token} (hi : ts[i]? = some o)
    {j' : Nat} (hj' : i ≤ j') :
    ts.extract i (j' + 1) = o :: (ts.drop (i + 1)).take (j' - i) := by
  have hlt : i < ts.length := (List.getElem?_eq_some_iff.1 hi).1
  have hget : ts[i] = o := (List.getElem?_eq_some_iff.1 hi).2
  rw [List.extract_eq_take_drop, List.drop_eq_getElem_cons hlt, hget,
    show j' + 1 - i = j' - i + 1 by omega, List.take_succ_cons]

/-- The `}` matching a `{` lies `closingLength 1` tokens after it. -/
theorem matches_iff {ts : List Token} {i : Nat} {o : Token} (hi : ts[i]? = some o)
    (ho : o.kind = .openingCurlyBrace) (j : Nat) :
    Matches ts i j ↔ i < j ∧ closingLength 1 (ts.drop (i + 1)) = some (j - i) := by
  have hlt : i < ts.length := (List.getElem?_eq_some_iff.1 hi).1
  have hbal : ∀ j', i ≤ j' → braceBalance (ts.extract i (j' + 1)) =
      1 + braceBalance ((ts.drop (i + 1)).take (j' - i)) := fun j' hj' => by
    rw [extract_of_open hi hj', braceBalance_cons, braceDelta_open ho]
  rw [closingLength_eq_some_iff, List.length_drop]
  constructor
  · rintro ⟨hij, hj, hzero, hmin⟩
    refine ⟨hij, by omega, by have := hbal j (by omega); omega, fun k' hk' => ?_⟩
    have := hmin (i + k') (by omega) (by omega)
    rw [hbal _ (by omega), show i + k' - i = k' by omega] at this
    omega
  · rintro ⟨hij, hle, hzero, hmin⟩
    refine ⟨hij, by omega, by rw [hbal j (by omega)]; omega, fun j' hj' hj'j => ?_⟩
    have := hmin (j' - i) (by omega)
    rw [hbal j' hj']
    omega

/-! ## Where a block ends -/

/-- The tokens after the block whose contents start `ts`: those after its closing `}`, or none
    when nothing closes it. -/
def blockRest (ts : List Token) : List Token := ts.drop ((closingLength 1 ts).getD ts.length)

/-- The `}` that closes the block whose contents start `ts`, if any. -/
def closingBrace? (ts : List Token) : Option Token :=
  match closingLength 1 ts with
  | some (k + 1) => ts[k]?
  | _ => none

theorem closingBrace?_of_closingLength {ts : List Token} {k : Nat}
    (h : closingLength 1 ts = some (k + 1)) : closingBrace? ts = ts[k]? := by
  rw [closingBrace?, h]

theorem closingBrace?_of_closingLength_none {ts : List Token} (h : closingLength 1 ts = none) :
    closingBrace? ts = none := by
  rw [closingBrace?, h]

/-- No open block has closed before a token is read. -/
theorem closingLength_succ_ne_zero (d : Nat) (ts : List Token) :
    closingLength (d + 1) ts ≠ some 0 := by
  cases ts with
  | nil => simp
  | cons t ts => simp

/-- Only a `}` read with a single block open closes every block. -/
theorem close_of_afterToken_eq_zero {d : Nat} {t : Token} (h : afterToken d t = 0) :
    t.kind = .closingCurlyBrace := by
  unfold afterToken at h
  split at h
  · omega
  · split at h
    · assumption
    · omega

/-- The last token read to close the open blocks is a `}`. -/
theorem closingLength_last {d k : Nat} {ts : List Token} (h : closingLength d ts = some (k + 1)) :
    ∃ c, ts[k]? = some c ∧ c.kind = .closingCurlyBrace := by
  induction ts generalizing d k with
  | nil => cases d <;> simp at h
  | cons t ts ih =>
    cases d with
    | zero => simp at h
    | succ d =>
      rw [closingLength_succ_cons, Option.map_eq_some_iff] at h
      obtain ⟨j, hj, hjk⟩ := h
      rw [show j = k by omega] at hj
      cases k with
      | zero =>
        -- the token read last is the head, which closed the last open block
        have hzero : afterToken d t = 0 := by
          cases hd : afterToken d t with
          | zero => rfl
          | succ e => rw [hd] at hj; exact absurd hj (closingLength_succ_ne_zero e ts)
        exact ⟨t, rfl, close_of_afterToken_eq_zero hzero⟩
      | succ k =>
        obtain ⟨c, hc, hkind⟩ := ih hj
        exact ⟨c, by simpa using hc, hkind⟩

/-- A block that closes does so with a `}`, the last token it reads. -/
theorem closingBrace?_spec {ts : List Token} {k : Nat} (h : closingLength 1 ts = some k) :
    ∃ c, closingBrace? ts = some c ∧ ts[k - 1]? = some c ∧ c.kind = .closingCurlyBrace := by
  obtain ⟨j, rfl⟩ : ∃ j, k = j + 1 := ⟨k - 1, by
    have := closingLength_succ_ne_zero 0 ts
    rcases k with _ | k
    · exact absurd h this
    · omega⟩
  obtain ⟨c, hc, hkind⟩ := closingLength_last h
  exact ⟨c, by rw [closingBrace?_of_closingLength h, hc], hc, hkind⟩

theorem closingBrace?_isSome (ts : List Token) :
    (closingBrace? ts).isSome = (closingLength 1 ts).isSome := by
  cases h : closingLength 1 ts with
  | none => rw [closingBrace?_of_closingLength_none h]; rfl
  | some k =>
    obtain ⟨c, hc, -⟩ := closingBrace?_spec h
    rw [hc]
    rfl

/-- Tokens that are no brace before a block's contents change nothing of where it closes. -/
theorem closingBrace?_nonBrace {nb : List Token} (ts : List Token)
    (hnb : ∀ x ∈ nb, isBrace x = false) : closingBrace? (nb ++ ts) = closingBrace? ts := by
  cases hk : closingLength 1 ts with
  | none =>
    rw [closingBrace?_of_closingLength_none hk, closingBrace?_of_closingLength_none
      (by rw [closingLength_nonBrace _ hnb, hk]; rfl)]
  | some k =>
    obtain ⟨k, rfl⟩ : ∃ k', k = k' + 1 := ⟨k - 1, by
      have := closingLength_succ_ne_zero 0 ts
      rcases k with _ | k
      · exact absurd hk this
      · omega⟩
    have hlong : closingLength 1 (nb ++ ts) = some (nb.length + k + 1) := by
      rw [closingLength_nonBrace _ hnb, hk]
      rfl
    rw [closingBrace?_of_closingLength hlong, closingBrace?_of_closingLength hk,
      List.getElem?_append_right (by omega), show nb.length + k - nb.length = k by omega]

theorem closingBrace?_one_close {t : Token} (ht : t.kind = .closingCurlyBrace)
    (rest : List Token) : closingBrace? (t :: rest) = some t :=
  closingBrace?_of_closingLength (closingLength_one_close ht rest)

/-- After a `{`, the block closes where the rest closes once the nested block is done. -/
theorem closingBrace?_one_open {t : Token} (ht : t.kind = .openingCurlyBrace)
    (rest : List Token) : closingBrace? (t :: rest) = closingBrace? (blockRest rest) := by
  have hlen := closingLength_one_open ht rest
  unfold blockRest
  cases hk : closingLength 1 rest with
  | none =>
    rw [hk] at hlen
    rw [closingBrace?_of_closingLength_none hlen, Option.getD_none, List.drop_length,
      closingBrace?_of_closingLength_none rfl]
  | some k =>
    rw [Option.getD_some]
    cases hk' : closingLength 1 (rest.drop k) with
    | none =>
      rw [hk, Option.bind_some, hk'] at hlen
      rw [closingBrace?_of_closingLength_none hlen, closingBrace?_of_closingLength_none hk']
    | some k' =>
      obtain ⟨k', rfl⟩ : ∃ j, k' = j + 1 := ⟨k' - 1, by
        have := closingLength_succ_ne_zero 0 (rest.drop k)
        rcases k' with _ | k'
        · exact absurd hk' this
        · omega⟩
      have hlong : closingLength 1 (t :: rest) = some (k + k' + 1 + 1) := by
        rw [hlen, hk, Option.bind_some, hk']
        rfl
      rw [closingBrace?_of_closingLength hlong, closingBrace?_of_closingLength hk',
        List.getElem?_drop, List.getElem?_cons_succ]

/-! ## The braces a block reads -/

/-- A `{` read inside a block: the brace, its nesting level (the block's own brace being level
    1) and the tokens after it. -/
structure Opening where
  brace : Token
  level : Nat
  after : List Token

/-- The same opening seen from `k` levels further out. -/
def Opening.deeper (op : Opening) (k : Nat) : Opening := { op with level := op.level + k }

@[simp] theorem Opening.deeper_brace (op : Opening) (k : Nat) : (op.deeper k).brace = op.brace :=
  rfl

@[simp] theorem Opening.deeper_level (op : Opening) (k : Nat) :
    (op.deeper k).level = op.level + k := rfl

@[simp] theorem Opening.deeper_after (op : Opening) (k : Nat) : (op.deeper k).after = op.after :=
  rfl

/-- The `{`s read from `ts` until `d` open blocks are all closed, in stream order, each with its
    nesting level: a `{` read while `d + 1` blocks are open is at level `d + 2`. -/
def openings : Nat → List Token → List Opening
  | 0, _ => []
  | _ + 1, [] => []
  | d + 1, t :: ts =>
    if t.kind = .openingCurlyBrace then ⟨t, d + 2, ts⟩ :: openings (afterToken d t) ts
    else openings (afterToken d t) ts

/-- The deepest nesting level among openings, the block's own brace (level 1) included. -/
def deepest (ops : List Opening) : Nat := ops.foldr (fun op n => max op.level n) 1

@[simp] theorem openings_zero (ts : List Token) : openings 0 ts = [] := by
  cases ts <;> rfl

@[simp] theorem openings_succ_nil (d : Nat) : openings (d + 1) [] = [] := rfl

theorem openings_succ_cons (d : Nat) (t : Token) (ts : List Token) :
    openings (d + 1) (t :: ts) =
      if t.kind = .openingCurlyBrace then ⟨t, d + 2, ts⟩ :: openings (afterToken d t) ts
      else openings (afterToken d t) ts := rfl

/-- Every `{` a block reads lies inside it, at level 2 or deeper. -/
theorem two_le_level_of_mem_openings {d : Nat} {ts : List Token} {op : Opening}
    (h : op ∈ openings d ts) : 2 ≤ op.level := by
  induction ts generalizing d with
  | nil => cases d <;> simp at h
  | cons t ts ih =>
    cases d with
    | zero => simp at h
    | succ d =>
      rw [openings_succ_cons] at h
      split at h
      · rcases List.mem_cons.1 h with rfl | h
        · exact Nat.le_add_left 2 d
        · exact ih h
      · exact ih h

/-- With `a + b` blocks open, the openings read until the first `a` close come first, `b` levels
    deeper, and then those read until the other `b` close. -/
theorem openings_add (a b : Nat) (ts : List Token) :
    openings (a + b) ts = (openings a ts).map (·.deeper b) ++
      match closingLength a ts with
      | some k => openings b (ts.drop k)
      | none => [] := by
  induction ts generalizing a with
  | nil =>
    cases a with
    | zero => simp
    | succ a => rw [Nat.succ_add]; rfl
  | cons t ts ih =>
    cases a with
    | zero => simp
    | succ a =>
      rw [Nat.succ_add, openings_succ_cons, openings_succ_cons, closingLength_succ_cons,
        afterToken_add, ih]
      cases hk : closingLength (afterToken a t) ts with
      | none =>
        split
        · simp [Opening.deeper]
          omega
        · simp
      | some k =>
        split
        · simp [Opening.deeper]
          omega
        · simp

/-- Tokens that are no brace add no opening. -/
theorem openings_nonBrace {nb : List Token} (d : Nat) (ts : List Token)
    (hnb : ∀ x ∈ nb, isBrace x = false) : openings (d + 1) (nb ++ ts) = openings (d + 1) ts := by
  induction nb with
  | nil => rfl
  | cons x nb ih =>
    have hx := hnb x (by simp)
    have hopen : ¬ x.kind = .openingCurlyBrace := by
      simp only [isBrace, Bool.or_eq_false_iff, beq_eq_false_iff_ne, ne_eq] at hx
      exact hx.1
    rw [List.cons_append, openings_succ_cons, if_neg hopen, afterToken_of_not_isBrace hx]
    exact ih fun y hy => hnb y (by simp [hy])

/-- A `}` closes the only open block before anything else is read. -/
theorem openings_one_close {t : Token} (ht : t.kind = .closingCurlyBrace) (rest : List Token) :
    openings 1 (t :: rest) = [] := by
  rw [openings_succ_cons, if_neg (by rw [ht]; decide), afterToken_close ht, openings_zero]

/-- After a `{` come the openings of its own block, one level deeper, and then those read after
    it closes. -/
theorem openings_one_open {t : Token} (ht : t.kind = .openingCurlyBrace) (rest : List Token) :
    openings 1 (t :: rest) =
      ⟨t, 2, rest⟩ :: ((openings 1 rest).map (·.deeper 1) ++ openings 1 (blockRest rest)) := by
  rw [openings_succ_cons, if_pos ht, afterToken_open ht, show 0 + 2 = 1 + 1 from rfl,
    openings_add]
  unfold blockRest
  cases hk : closingLength 1 rest with
  | none => simp
  | some k => rfl

/-- Seen one level further out, every opening is at level 3 or deeper. -/
theorem three_le_level_of_mem_deeper {op : Opening} {d : Nat} {ts : List Token}
    (h : op ∈ (openings d ts).map (·.deeper 1)) : 3 ≤ op.level := by
  obtain ⟨op', hop', rfl⟩ := List.mem_map.1 h
  have := two_le_level_of_mem_openings hop'
  simp only [Opening.deeper_level]
  omega

/-- Looking one level further out, an opening is too deep at one nesting index less. -/
theorem find?_deeper (ops : List Opening) (m d : Nat) :
    (ops.map (·.deeper 1)).find? (fun op => m < d + op.level) =
      (ops.find? (fun op => m < d + 1 + op.level)).map (·.deeper 1) := by
  rw [List.find?_map]
  congr 2
  funext op
  show decide (m < d + (op.level + 1)) = decide (m < d + 1 + op.level)
  exact decide_eq_decide.2 (by omega)

@[simp] theorem deepest_nil : deepest [] = 1 := rfl

theorem deepest_cons (op : Opening) (ops : List Opening) :
    deepest (op :: ops) = max op.level (deepest ops) := rfl

theorem one_le_deepest (ops : List Opening) : 1 ≤ deepest ops := by
  induction ops with
  | nil => exact Nat.le_refl 1
  | cons op ops ih => rw [deepest_cons]; omega

theorem deepest_append (l₁ l₂ : List Opening) :
    deepest (l₁ ++ l₂) = max (deepest l₁) (deepest l₂) := by
  induction l₁ with
  | nil => have := one_le_deepest l₂; simp; omega
  | cons op l₁ ih => rw [List.cons_append, deepest_cons, deepest_cons, ih]; omega

/-- Seen one level further out, the deepest level grows by one, at least to level 2. -/
theorem deepest_map_deeper (ops : List Opening) :
    max 2 (deepest (ops.map (·.deeper 1))) = deepest ops + 1 := by
  induction ops with
  | nil => rfl
  | cons op ops ih =>
    rw [List.map_cons, deepest_cons, deepest_cons, Opening.deeper_level]
    omega

theorem level_le_deepest {ops : List Opening} {op : Opening} (h : op ∈ ops) :
    op.level ≤ deepest ops := by
  induction ops with
  | nil => exact absurd h List.not_mem_nil
  | cons op' ops ih =>
    rw [deepest_cons]
    rcases List.mem_cons.1 h with rfl | h
    · exact Nat.le_max_left _ _
    · exact Nat.le_trans (ih h) (Nat.le_max_right _ _)

/-- A block reads one opening per `{` up to where it closes. -/
theorem length_openings (d : Nat) (ts : List Token) :
    (openings d ts).length =
      (ts.take ((closingLength d ts).getD ts.length)).countP (·.kind == .openingCurlyBrace) := by
  induction ts generalizing d with
  | nil => cases d <;> simp
  | cons t ts ih =>
    cases d with
    | zero => simp
    | succ d =>
      have hread : ((closingLength (afterToken d t) ts).map (· + 1)).getD (ts.length + 1) =
          (closingLength (afterToken d t) ts).getD ts.length + 1 :=
        Option.getD_map (· + 1) ts.length _
      rw [openings_succ_cons, closingLength_succ_cons, List.length_cons, hread,
        List.take_succ_cons, List.countP_cons, ← ih]
      split
      · next hopen => simp [hopen]
      · next hopen => simp [hopen]

/-- An opening is a `{` at some index `q` before the open blocks close, with the tokens after
    it and its level: one more than the blocks open when it is read. -/
theorem mem_openings_iff (d : Nat) (ts : List Token) (op : Opening) :
    op ∈ openings d ts ↔ ∃ q, q < (closingLength d ts).getD ts.length ∧
      ts[q]? = some op.brace ∧ op.brace.kind = .openingCurlyBrace ∧ op.after = ts.drop (q + 1) ∧
      (op.level : Int) = d + 1 + braceBalance (ts.take q) := by
  induction ts generalizing d with
  | nil => cases d <;> simp
  | cons t ts ih =>
    cases d with
    | zero => simp
    | succ d =>
      have hafter := afterToken_eq_add_delta d t
      have hread : ((closingLength (afterToken d t) ts).map (· + 1)).getD (ts.length + 1) =
          (closingLength (afterToken d t) ts).getD ts.length + 1 :=
        Option.getD_map (· + 1) ts.length _
      rw [closingLength_succ_cons, List.length_cons, hread]
      -- index `q + 1` is index `q` of the rest, read with `afterToken d t` blocks open
      have hlater : op ∈ openings (afterToken d t) ts ↔ ∃ q,
          q + 1 < (closingLength (afterToken d t) ts).getD ts.length + 1 ∧
          (t :: ts)[q + 1]? = some op.brace ∧ op.brace.kind = .openingCurlyBrace ∧
          op.after = (t :: ts).drop (q + 1 + 1) ∧
          (op.level : Int) = ((d + 1 : Nat) : Int) + 1 + braceBalance ((t :: ts).take (q + 1)) := by
        rw [ih]
        simp only [List.getElem?_cons_succ, List.drop_succ_cons, List.take_succ_cons,
          braceBalance_cons]
        constructor
        · rintro ⟨q, hq, hget, hkind, hrest, hlevel⟩
          exact ⟨q, by omega, hget, hkind, hrest, by omega⟩
        · rintro ⟨q, hq, hget, hkind, hrest, hlevel⟩
          exact ⟨q, by omega, hget, hkind, hrest, by omega⟩
      rw [openings_succ_cons]
      constructor
      · intro h
        split at h
        · next hopen =>
          rcases List.mem_cons.1 h with rfl | h
          · exact ⟨0, by omega, rfl, hopen, rfl, by simp; omega⟩
          · obtain ⟨q, hq⟩ := hlater.1 h
            exact ⟨q + 1, hq⟩
        · obtain ⟨q, hq⟩ := hlater.1 h
          exact ⟨q + 1, hq⟩
      · rintro ⟨q, hq, hget, hkind, hrest, hlevel⟩
        cases q with
        | zero =>
          -- the head itself is the `{`
          obtain ⟨brace, level, after⟩ := op
          simp only [List.getElem?_cons_zero, Option.some.injEq, List.drop_succ_cons,
            List.drop_zero, List.take_zero, braceBalance_nil] at hget hrest hlevel hkind
          subst hget hrest
          rw [if_pos hkind]
          exact List.mem_cons.2 (.inl (by simp only [Opening.mk.injEq, true_and, and_true]; omega))
        | succ q =>
          have hmem := hlater.2 ⟨q, hq, hget, hkind, hrest, hlevel⟩
          split
          · exact List.mem_cons_of_mem _ hmem
          · exact hmem

/-- Openings are listed in stream order: each later one has fewer tokens after it. -/
theorem openings_ordered (d : Nat) (ts : List Token) :
    (openings d ts).Pairwise (fun a b => b.after.length < a.after.length) := by
  induction ts generalizing d with
  | nil => cases d <;> simp
  | cons t ts ih =>
    cases d with
    | zero => simp
    | succ d =>
      rw [openings_succ_cons]
      split
      · refine List.pairwise_cons.2 ⟨fun op hop => ?_, ih _⟩
        -- a later opening lies in `ts`, after its own brace
        obtain ⟨q, -, hget, -, hafter, -⟩ := (mem_openings_iff _ _ _).1 hop
        have hq : q < ts.length := (List.getElem?_eq_some_iff.1 hget).1
        show op.after.length < ts.length
        rw [hafter, List.length_drop]
        omega
      · exact ih _

end Analysis

theorem Block.nestedCountList_append_singleton (bs : List Block) (x : Block) :
    Block.nestedCountList (bs ++ [x]) = Block.nestedCountList bs + (1 + x.nestedCount) := by
  induction bs with
  | nil => simp [Block.nestedCountList]
  | cons y bs ih => simp only [List.cons_append, Block.nestedCountList, ih]; omega

theorem Block.maxDepth_append_singleton (bs : List Block) (x : Block) :
    Block.maxDepth (bs ++ [x]) = max (Block.maxDepth bs) x.depth := by
  induction bs with
  | nil => simp [Block.maxDepth]
  | cons y bs ih => simp only [List.cons_append, Block.maxDepth, ih]; omega

namespace Analysis

/-! ## Reading a block leniently -/

/-- The reader finds no brace: it reads no opening and never closes. -/
theorem openings_of_dropWhile_nil {ts : List Token}
    (h : ts.dropWhile (fun t => !isBrace t) = []) : openings 1 ts = [] := by
  simpa using openings_nonBrace 0 [] (nonBrace_of_dropWhile_eq_nil h)

theorem closingBrace?_of_dropWhile_nil {ts : List Token}
    (h : ts.dropWhile (fun t => !isBrace t) = []) : closingBrace? ts = none :=
  closingBrace?_of_closingLength_none (closingLength_one_of_nonBrace (nonBrace_of_dropWhile_eq_nil h))

/-- The reader goes on at the next brace as if the tokens before it were not there. -/
theorem openings_of_dropWhile_cons {ts rest : List Token} {t : Token}
    (h : ts.dropWhile (fun t => !isBrace t) = t :: rest) :
    openings 1 ts = openings 1 (t :: rest) := by
  obtain ⟨nb, rfl, hnb, -⟩ := eq_of_dropWhile_eq_cons h
  exact openings_nonBrace 0 _ hnb

theorem closingBrace?_of_dropWhile_cons {ts rest : List Token} {t : Token}
    (h : ts.dropWhile (fun t => !isBrace t) = t :: rest) :
    closingBrace? ts = closingBrace? (t :: rest) := by
  obtain ⟨nb, rfl, hnb, -⟩ := eq_of_dropWhile_eq_cons h
  exact closingBrace?_nonBrace _ hnb

theorem open_of_dropWhile_cons {ts rest : List Token} {t : Token}
    (h : ts.dropWhile (fun t => !isBrace t) = t :: rest) (hclose : ¬ t.kind = .closingCurlyBrace) :
    t.kind = .openingCurlyBrace := by
  obtain ⟨-, -, -, hbrace⟩ := eq_of_dropWhile_eq_cons h
  exact open_of_isBrace hbrace hclose

section Lenient

variable {m : Nat} {fin : Span}

/-- At a `{` the reader reads the nested block, whose openings come one level deeper, and goes
    on with what the nested block left. -/
theorem openings_nested {strict : Bool} {d : Nat} {ts rest : List Token} {t : Token}
    {c : Body rest} (hcons : ts.dropWhile (fun t => !isBrace t) = t :: rest)
    (hclose : ¬ t.kind = .closingCurlyBrace)
    (hc : Body.items strict m fin (d + 1) t #[] [] rest = .ok c) :
    openings 1 ts = ⟨t, 2, rest⟩ :: ((openings 1 rest).map (·.deeper 1) ++ openings 1 c.rest.1) := by
  rw [openings_of_dropWhile_cons hcons, openings_one_open (open_of_dropWhile_cons hcons hclose),
    items_rest hc]
  rfl

/-- After a nested block, the block closes where the rest of its tokens close it. -/
theorem closingBrace?_nested {strict : Bool} {d : Nat} {ts rest : List Token} {t : Token}
    {c : Body rest} (hcons : ts.dropWhile (fun t => !isBrace t) = t :: rest)
    (hclose : ¬ t.kind = .closingCurlyBrace)
    (hc : Body.items strict m fin (d + 1) t #[] [] rest = .ok c) :
    closingBrace? ts = closingBrace? c.rest.1 := by
  rw [closingBrace?_of_dropWhile_cons hcons,
    closingBrace?_one_open (open_of_dropWhile_cons hcons hclose), items_rest hc]
  rfl

/-- A lenient reading that succeeds kept every opening within the limit. -/
theorem items_ok_levels {d : Nat} {o : Token} {ch : Array Block} {u ts : List Token}
    {b : Body ts} (h : Body.items false m fin d o ch u ts = .ok b) :
    ∀ op ∈ openings 1 ts, d + op.level ≤ m := by
  fun_induction Body.items false m fin d o ch u ts with
  | case1 => contradiction
  | case2 _ _ _ _ ts hnil =>
    rw [openings_of_dropWhile_nil hnil]
    exact fun op hop => absurd hop List.not_mem_nil
  | case3 _ _ _ _ ts t rest hcons hclose =>
    rw [openings_of_dropWhile_cons hcons, openings_one_close hclose]
    exact fun op hop => absurd hop List.not_mem_nil
  | case4 => cases h
  | case5 => cases h
  | case6 => cases h
  | case7 d _ _ _ ts t rest hcons hclose hdepth c hc b' hb' ihc ihb =>
    rw [openings_nested hcons hclose hc]
    intro op hop
    rcases List.mem_cons.1 hop with rfl | hop
    · -- the nested brace itself passed the depth check
      show d + 2 ≤ m
      omega
    rcases List.mem_append.1 hop with hop | hop
    · obtain ⟨op', hop', rfl⟩ := List.mem_map.1 hop
      have := ihc hc op' hop'
      simp only [Opening.deeper_level]
      omega
    · exact ihb hb' op hop

/-- Lenient reading fails only at the first opening whose level carries the nesting index past
    the limit, and names the limit, that brace and the nesting index it would open. -/
theorem items_error {d : Nat} {o : Token} {ch : Array Block} {u ts : List Token}
    {e : SyntaxError × LogEvent} (h : Body.items false m fin d o ch u ts = .error e) :
    ∃ op, (openings 1 ts).find? (fun op => m < d + op.level) = some op ∧
      e = tooDeepHalt m (d + op.level - 1) op.brace := by
  fun_induction Body.items false m fin d o ch u ts with
  | case1 => contradiction
  | case2 => cases h
  | case3 => cases h
  | case4 d _ _ _ ts t rest hcons hclose hdepth =>
    cases h
    rw [openings_of_dropWhile_cons hcons, openings_one_open (open_of_dropWhile_cons hcons hclose)]
    exact ⟨_, List.find?_cons_of_pos (by simp only [decide_eq_true_eq]; omega), rfl⟩
  | case5 d _ _ _ ts t rest hcons hclose hdepth e' hc ihc =>
    cases h
    obtain ⟨op, hfind, rfl⟩ := ihc hc
    rw [openings_of_dropWhile_cons hcons, openings_one_open (open_of_dropWhile_cons hcons hclose)]
    refine ⟨op.deeper 1, ?_, ?_⟩
    · rw [List.find?_cons_of_neg (by simp only [decide_eq_true_eq]; omega), List.find?_append,
        find?_deeper, hfind]
      rfl
    · -- one level further out, the same brace at the same nesting index
      simp only [Opening.deeper_level, Opening.deeper_brace]
      congr 1
      omega
  | case6 d _ _ _ ts t rest hcons hclose hdepth c hc e' hb' ihc ihb =>
    cases h
    obtain ⟨op, hfind, rfl⟩ := ihb hb'
    -- the nested block read without error, so none of its openings is too deep
    have hnone : (openings 1 rest).find? (fun op => m < d + 1 + op.level) = none :=
      List.find?_eq_none.2 fun op hop => by
        have := items_ok_levels hc op hop
        simp only [decide_eq_true_eq]
        omega
    rw [openings_nested hcons hclose hc]
    refine ⟨op, ?_, rfl⟩
    rw [List.find?_cons_of_neg (by simp only [decide_eq_true_eq]; omega), List.find?_append,
      find?_deeper, hnone, hfind]
    rfl
  | case7 => cases h

/-- The children of a leniently read block are the blocks read at its level-2 openings, in
    order, one nesting index deeper. -/
theorem items_children {d : Nat} {o : Token} {ch : Array Block} {u ts : List Token}
    {b : Body ts} (h : Body.items false m fin d o ch u ts = .ok b) :
    ∃ cs, b.block.children = ch.toList ++ cs ∧
      List.Forall₂
        (fun op c => (Body.enter false m fin (d + 1) op.brace op.after).map Body.block = .ok c)
        ((openings 1 ts).filter (·.level == 2)) cs := by
  fun_induction Body.items false m fin d o ch u ts with
  | case1 => contradiction
  | case2 _ _ _ _ ts hnil =>
    cases h
    refine ⟨[], by simp, ?_⟩
    rw [openings_of_dropWhile_nil hnil]
    exact .nil
  | case3 _ _ _ _ ts t rest hcons hclose =>
    cases h
    refine ⟨[], by simp, ?_⟩
    rw [openings_of_dropWhile_cons hcons, openings_one_close hclose]
    exact .nil
  | case4 => cases h
  | case5 => cases h
  | case6 => cases h
  | case7 d _ ch _ ts t rest hcons hclose hdepth c hc b' hb' ihc ihb =>
    cases h
    obtain ⟨cs, hcs, hall⟩ := ihb hb'
    -- the openings inside the nested block are deeper than level 2
    have hdeeper : ((openings 1 rest).map (·.deeper 1)).filter (·.level == 2) = [] :=
      List.filter_eq_nil_iff.2 fun op hop => by
        have := three_le_level_of_mem_deeper hop
        simp only [beq_iff_eq]
        omega
    refine ⟨c.block :: cs, by simp [hcs], ?_⟩
    rw [openings_nested hcons hclose hc, List.filter_cons_of_pos rfl, List.filter_append, hdeeper,
      List.nil_append]
    refine .cons ?_ hall
    show (Body.enter false m fin (d + 1) t rest).map Body.block = .ok c.block
    rw [Body.enter, if_neg hdepth, hc]
    rfl

/-- A leniently read block is terminated exactly when its own brace is matched. -/
theorem items_terminated {d : Nat} {o : Token} {ch : Array Block} {u ts : List Token}
    {b : Body ts} (h : Body.items false m fin d o ch u ts = .ok b) :
    b.block.terminated = (closingLength 1 ts).isSome := by
  rw [← closingBrace?_isSome]
  fun_induction Body.items false m fin d o ch u ts with
  | case1 => contradiction
  | case2 _ _ _ _ ts hnil =>
    cases h
    rw [closingBrace?_of_dropWhile_nil hnil]
    rfl
  | case3 _ _ _ _ ts t rest hcons hclose =>
    cases h
    rw [closingBrace?_of_dropWhile_cons hcons, closingBrace?_one_close hclose]
    rfl
  | case4 => cases h
  | case5 => cases h
  | case6 => cases h
  | case7 d _ ch _ ts t rest hcons hclose hdepth c hc b' hb' ihc ihb =>
    cases h
    show b'.block.terminated = _
    rw [ihb hb', closingBrace?_nested hcons hclose hc]

/-- A leniently read block spans from its brace to the `}` that matches it, or to `fin` when
    none does. -/
theorem items_span {d : Nat} {o : Token} {ch : Array Block} {u ts : List Token}
    {b : Body ts} (h : Body.items false m fin d o ch u ts = .ok b) :
    b.block.span = some (o.span.merge (((closingBrace? ts).map Token.span).getD fin)) := by
  fun_induction Body.items false m fin d o ch u ts with
  | case1 => contradiction
  | case2 _ _ _ _ ts hnil =>
    cases h
    rw [closingBrace?_of_dropWhile_nil hnil]
    rfl
  | case3 _ _ _ _ ts t rest hcons hclose =>
    cases h
    rw [closingBrace?_of_dropWhile_cons hcons, closingBrace?_one_close hclose]
    rfl
  | case4 => cases h
  | case5 => cases h
  | case6 => cases h
  | case7 d _ ch _ ts t rest hcons hclose hdepth c hc b' hb' ihc ihb =>
    cases h
    show b'.block.span = _
    rw [ihb hb', closingBrace?_nested hcons hclose hc]

/-- A leniently read block holds one nested block per opening it reads. -/
theorem items_nestedCount {d : Nat} {o : Token} {ch : Array Block} {u ts : List Token}
    {b : Body ts} (h : Body.items false m fin d o ch u ts = .ok b) :
    b.block.nestedCount = Block.nestedCountList ch.toList + (openings 1 ts).length := by
  fun_induction Body.items false m fin d o ch u ts with
  | case1 => contradiction
  | case2 _ _ _ _ ts hnil =>
    cases h
    rw [openings_of_dropWhile_nil hnil]
    rfl
  | case3 _ _ _ _ ts t rest hcons hclose =>
    cases h
    rw [openings_of_dropWhile_cons hcons, openings_one_close hclose]
    rfl
  | case4 => cases h
  | case5 => cases h
  | case6 => cases h
  | case7 d _ ch _ ts t rest hcons hclose hdepth c hc b' hb' ihc ihb =>
    cases h
    have hchild := ihc hc
    show b'.block.nestedCount = _
    rw [ihb hb', Array.toList_push, Block.nestedCountList_append_singleton, hchild,
      openings_nested hcons hclose hc]
    simp only [List.length_cons, List.length_append, List.length_map, Block.nestedCountList]
    omega

/-- The depth of a leniently read block is the deepest level of the openings it reads. -/
theorem items_depth {d : Nat} {o : Token} {ch : Array Block} {u ts : List Token}
    {b : Body ts} (h : Body.items false m fin d o ch u ts = .ok b) :
    b.block.depth = max (1 + Block.maxDepth ch.toList) (deepest (openings 1 ts)) := by
  fun_induction Body.items false m fin d o ch u ts with
  | case1 => contradiction
  | case2 _ _ _ _ ts hnil =>
    cases h
    rw [openings_of_dropWhile_nil hnil]
    simp [Block.depth]
  | case3 _ _ _ _ ts t rest hcons hclose =>
    cases h
    rw [openings_of_dropWhile_cons hcons, openings_one_close hclose]
    simp [Block.depth]
  | case4 => cases h
  | case5 => cases h
  | case6 => cases h
  | case7 d _ ch _ ts t rest hcons hclose hdepth c hc b' hb' ihc ihb =>
    cases h
    have hchild := ihc hc
    have hdeeper := deepest_map_deeper (openings 1 rest)
    have hone := one_le_deepest (openings 1 rest)
    show b'.block.depth = _
    rw [ihb hb', Array.toList_push, Block.maxDepth_append_singleton, hchild,
      openings_nested hcons hclose hc, deepest_cons, deepest_append]
    simp only [Block.maxDepth]
    omega

end Lenient

/-! ## The block at a `{` -/

/-- No `}` matches the `{` at `i` exactly when the block it opens never closes. -/
theorem not_matches_iff {ts : List Token} {i : Nat} {o : Token} (hi : ts[i]? = some o)
    (ho : o.kind = .openingCurlyBrace) :
    (∀ j, ¬ Matches ts i j) ↔ closingLength 1 (ts.drop (i + 1)) = none := by
  constructor
  · intro hnone
    cases hk : closingLength 1 (ts.drop (i + 1)) with
    | none => rfl
    | some k =>
      -- a block closes after at least one token, at its matching `}`
      have hk0 : k ≠ 0 := by
        rintro rfl
        exact closingLength_succ_ne_zero 0 _ hk
      refine absurd ((matches_iff hi ho (i + k)).2 ⟨by omega, ?_⟩) (hnone (i + k))
      rw [hk, Nat.add_sub_cancel_left]
  · intro hk j hj
    have hsome := ((matches_iff hi ho j).1 hj).2
    rw [hk] at hsome
    cases hsome

/-- Read leniently from the `{` at index `i`, with no opening deeper than the limit allows, a
    block takes exactly the tokens up to the `}` that matches its brace, or all of them when none
    does, and is the brace tree of that range: its children are the blocks read at the `{`s one
    level inside it, in order; it is terminated exactly when its brace is matched and spans to
    the matching `}` or to the end; it holds one nested block per `{` of the range, and its depth
    is the deepest nesting level there. -/
theorem lenient_block_at_brace (ts : List Token) (i d m : Nat) (o : Token)
    (hi : ts[i]? = some o) (ho : o.kind = .openingCurlyBrace)
    (hdeep : d + deepest (openings 1 (ts.drop (i + 1))) ≤ m) :
    ∃ b, Body.enter false m (endSpanOf ts) d o (ts.drop (i + 1)) = .ok b ∧
      (∀ j, Matches ts i j → ∃ c, ts[j]? = some c ∧ c.kind = .closingCurlyBrace ∧
        b.rest.1 = ts.drop (j + 1) ∧ b.block.terminated = true ∧
        b.block.span = some (o.span.merge c.span)) ∧
      ((∀ j, ¬ Matches ts i j) → b.rest.1 = [] ∧ b.block.terminated = false ∧
        b.block.span = some (o.span.merge (endSpanOf ts))) ∧
      List.Forall₂
        (fun op c =>
          (Body.enter false m (endSpanOf ts) (d + 1) op.brace op.after).map Body.block = .ok c)
        ((openings 1 (ts.drop (i + 1))).filter (·.level == 2)) b.block.children ∧
      b.block.nestedCount = ((ts.drop (i + 1)).take
        ((closingLength 1 (ts.drop (i + 1))).getD (ts.length - (i + 1)))).countP
          (·.kind == .openingCurlyBrace) ∧
      b.block.depth = deepest (openings 1 (ts.drop (i + 1))) := by
  generalize hxs : ts.drop (i + 1) = xs at hdeep ⊢
  have hlen : xs.length = ts.length - (i + 1) := by rw [← hxs, List.length_drop]
  have hone := one_le_deepest (openings 1 xs)
  have hm : ¬ d ≥ m := by omega
  -- no opening is too deep, so the reading cannot fail
  cases hb : Body.items false m (endSpanOf ts) d o #[] [] xs with
  | error e =>
    obtain ⟨op, hfind, -⟩ := items_error hb
    have hlevel := level_le_deepest (List.mem_of_find?_eq_some hfind)
    have htoo := List.find?_some hfind
    simp only [decide_eq_true_eq] at htoo
    omega
  | ok b =>
    have hterm := items_terminated hb
    have hspan := items_span hb
    have hrest := items_rest hb
    obtain ⟨cs, hcs, hall⟩ := items_children hb
    refine ⟨b, by rw [Body.enter, if_neg hm, hb], fun j hj => ?_, fun hnone => ?_, ?_, ?_, ?_⟩
    · -- the matching `}` is the last token the block reads
      obtain ⟨hij, hk⟩ := (matches_iff hi ho j).1 hj
      rw [hxs] at hk
      obtain ⟨c, hc, hcj, hkind⟩ := closingBrace?_spec hk
      have hcj' : ts[j]? = some c := by
        rw [← hcj, ← hxs, List.getElem?_drop, show i + 1 + (j - i - 1) = j by omega]
      refine ⟨c, hcj', hkind, ?_, by rw [hterm, hk]; rfl, by rw [hspan, hc]; rfl⟩
      rw [hrest, hk, Option.getD_some, ← hxs, List.drop_drop, show i + 1 + (j - i) = j + 1 by omega]
    · -- no `}` matches, so nothing closes the block
      have hnone' : closingLength 1 xs = none := by
        rw [← hxs]
        exact (not_matches_iff hi ho).1 hnone
      refine ⟨by rw [hrest, hnone']; simp, by rw [hterm, hnone']; rfl, ?_⟩
      rw [hspan, closingBrace?_of_closingLength_none hnone']
      rfl
    · simpa [hcs] using hall
    · rw [items_nestedCount hb, length_openings, ← hlen]
      exact Nat.zero_add _
    · rw [items_depth hb]
      simp only [Block.maxDepth]
      omega

/-- The block read at the first brace of `{ x { } { { }`, with at most three levels: no `}`
    matches its brace, and of its two children the second is left open too. -/
theorem lenient_block_at_brace_unclosed :
    let ts := TokenStream.layout "f.c" [(.openingCurlyBrace, "\x7b"), (.identifier, "x"),
      (.openingCurlyBrace, "\x7b"), (.closingCurlyBrace, "\x7d"), (.openingCurlyBrace, "\x7b"),
      (.openingCurlyBrace, "\x7b"), (.closingCurlyBrace, "\x7d")]
    let o := ts.head?.getD default
    ts[0]? = some o ∧ o.kind = .openingCurlyBrace ∧
      0 + deepest (openings 1 (ts.drop (0 + 1))) ≤ 3 ∧
      ∃ b, Body.enter false 3 (endSpanOf ts) 0 o (ts.drop (0 + 1)) = .ok b ∧
        (∀ j, Matches ts 0 j → ∃ c, ts[j]? = some c ∧ c.kind = .closingCurlyBrace ∧
          b.rest.1 = ts.drop (j + 1) ∧ b.block.terminated = true ∧
          b.block.span = some (o.span.merge c.span)) ∧
        ((∀ j, ¬ Matches ts 0 j) → b.rest.1 = [] ∧ b.block.terminated = false ∧
          b.block.span = some (o.span.merge (endSpanOf ts))) ∧
        List.Forall₂
          (fun op c =>
            (Body.enter false 3 (endSpanOf ts) (0 + 1) op.brace op.after).map Body.block = .ok c)
          ((openings 1 (ts.drop (0 + 1))).filter (·.level == 2)) b.block.children ∧
        b.block.nestedCount = ((ts.drop (0 + 1)).take
          ((closingLength 1 (ts.drop (0 + 1))).getD (ts.length - (0 + 1)))).countP
            (·.kind == .openingCurlyBrace) ∧
        b.block.depth = deepest (openings 1 (ts.drop (0 + 1))) := by
  intro ts o
  have hi : ts[0]? = some o := by decide +kernel
  have ho : o.kind = .openingCurlyBrace := by decide +kernel
  have hdeep : 0 + deepest (openings 1 (ts.drop (0 + 1))) ≤ 3 := by decide +kernel
  exact ⟨hi, ho, hdeep, lenient_block_at_brace ts 0 0 3 o hi ho hdeep⟩

end Analysis

end COutline
