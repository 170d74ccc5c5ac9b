import COutline.Proofs.Analysis.Scan

/-!
# The analysis does not look at byte offsets

Byte offsets enter the analysis only where two spans are merged, and a merge compares offsets.
Moving every offset by a map `g` that keeps the order of the offsets involved therefore moves
every offset of the outcome the same way and changes nothing else: the same program, the same
diagnostics and the same log, with their spans moved (`analyzeTokens_reoffset`).

`reoffset g` replaces the offset of each position by `g` of it, through every structure that
holds positions, and `Relabels A g` says that `g` keeps the order of the positions in `A` and
leaves the start of the text at offset 0.  The commuting lemmas go bottom up: merging spans,
reading a block (`items_reoffset`, one case per case of the reader), the decision at a data
type, recording a definition, the scan, and the analysis.
-/

namespace COutline

/-! ## Moving offsets -/

/-- The place `p` with its byte offset replaced by `g p`; line and column stay. -/
def Position.reoffset (g : Position → Nat) (p : Position) : Position := { p with offset := g p }

/-- Both ends of the span moved by `g`. -/
def Span.reoffset (g : Position → Nat) (s : Span) : Span := ⟨s.start.reoffset g, s.stop.reoffset g⟩

/-- The token with the ends of its span moved by `g`. -/
def Token.reoffset (g : Position → Nat) (t : Token) : Token := { t with span := t.span.reoffset g }

/-- `g` gives new offsets to the places that `A` holds of without changing their order, and
    keeps the start of the text, which is one of them, at offset 0. -/
structure Relabels (A : Position → Prop) (g : Position → Nat) : Prop where
  lt_iff : ∀ p q, A p → A q → (p.offset < q.offset ↔ g p < g q)
  start_mem : A Position.start
  start : g Position.start = 0

/-- Both ends of the span are places that `A` holds of. -/
def Span.Within (A : Position → Prop) (s : Span) : Prop := A s.start ∧ A s.stop

@[simp] theorem Position.reoffset_offset (g : Position → Nat) (p : Position) :
    (p.reoffset g).offset = g p := rfl

@[simp] theorem Position.reoffset_line (g : Position → Nat) (p : Position) :
    (p.reoffset g).line = p.line := rfl

@[simp] theorem Position.reoffset_column (g : Position → Nat) (p : Position) :
    (p.reoffset g).column = p.column := rfl

@[simp] theorem Token.reoffset_kind (g : Position → Nat) (t : Token) :
    (t.reoffset g).kind = t.kind := rfl

@[simp] theorem Token.reoffset_text (g : Position → Nat) (t : Token) :
    (t.reoffset g).text = t.text := rfl

@[simp] theorem Token.reoffset_location (g : Position → Nat) (t : Token) :
    (t.reoffset g).location = t.location := rfl

@[simp] theorem Token.reoffset_span (g : Position → Nat) (t : Token) :
    (t.reoffset g).span = t.span.reoffset g := rfl

section Merge

variable {A : Position → Prop} {g : Position → Nat} {a b : Span}

theorem Span.merge_within (ha : a.Within A) (hb : b.Within A) : (a.merge b).Within A := by
  constructor
  · show A (if _ then _ else _)
    split
    · exact ha.1
    · exact hb.1
  · show A (if _ then _ else _)
    split
    · exact ha.2
    · exact hb.2

/-- Moving offsets in an order-keeping way commutes with merging. -/
theorem Span.merge_reoffset (hg : Relabels A g) (ha : a.Within A) (hb : b.Within A) :
    (a.reoffset g).merge (b.reoffset g) = (a.merge b).reoffset g := by
  have hstart := hg.lt_iff a.start b.start ha.1 hb.1
  have hstop := hg.lt_iff b.stop a.stop hb.2 ha.2
  simp only [Span.merge, Span.reoffset, Position.reoffset_offset, gt_iff_lt, Span.mk.injEq]
  constructor
  · rw [apply_ite (Position.reoffset g)]
    exact if_congr hstart.symm rfl rfl
  · rw [apply_ite (Position.reoffset g)]
    exact if_congr hstop.symm rfl rfl

/-- The empty span at the start of the text stays where it is. -/
theorem Span.dummy_reoffset (hg : Relabels A g) : Span.dummy.reoffset g = Span.dummy := by
  show Span.point (Position.start.reoffset g) = Span.point Position.start
  rw [Position.reoffset, hg.start]
  rfl

end Merge

/-! ## Outlines -/

namespace Block

mutual
/-- The block with the offsets of its span and of every block inside moved by `g`. -/
def reoffset (g : Position → Nat) : Block → Block
  | ⟨cs, t, sp⟩ => ⟨reoffsetList g cs, t, sp.map (Span.reoffset g)⟩

/-- Each block of the list with its offsets moved by `g`. -/
def reoffsetList (g : Position → Nat) : List Block → List Block
  | [] => []
  | b :: bs => reoffset g b :: reoffsetList g bs
end

theorem reoffsetList_eq_map (g : Position → Nat) (bs : List Block) :
    reoffsetList g bs = bs.map (reoffset g) := by
  induction bs with
  | nil => rfl
  | cons b bs ih => simp [reoffsetList, ih]

@[simp] theorem reoffset_mk (g : Position → Nat) (cs : List Block) (t : Bool) (sp : Option Span) :
    reoffset g ⟨cs, t, sp⟩ = ⟨cs.map (reoffset g), t, sp.map (Span.reoffset g)⟩ := by
  rw [reoffset, reoffsetList_eq_map]

end Block

namespace SortedMap

variable {κ α β : Type}

/-- The map with `f` applied to every value. -/
def mapValues (f : α → β) (m : SortedMap κ α) : SortedMap κ β :=
  ⟨m.entries.map fun e => (e.1, f e.2)⟩

@[simp] theorem size_mapValues (f : α → β) (m : SortedMap κ α) : (m.mapValues f).size = m.size := by
  simp [size, mapValues]

variable [Ord κ]

theorem entryOf?_map (f : α → β) (k : κ) (l : List (κ × α)) :
    entryOf? k (l.map fun e => (e.1, f e.2)) = (entryOf? k l).map fun e => (e.1, f e.2) := by
  induction l with
  | nil => rfl
  | cons e l ih =>
    simp only [List.map_cons, entryOf?]
    split <;> simp [ih]

@[simp] theorem get?_mapValues (f : α → β) (m : SortedMap κ α) (k : κ) :
    (m.mapValues f).get? k = (m.get? k).map f := by
  simp only [get?, mapValues, entryOf?_map, Option.map_map]
  rfl

theorem insertEntry_map (f : α → β) (k : κ) (v : α) (l : List (κ × α)) :
    insertEntry k (f v) (l.map fun e => (e.1, f e.2)) =
      (insertEntry k v l).map fun e => (e.1, f e.2) := by
  induction l with
  | nil => rfl
  | cons e l ih =>
    simp only [List.map_cons, insertEntry]
    split <;> simp [ih]

@[simp] theorem insert_mapValues (f : α → β) (m : SortedMap κ α) (k : κ) (v : α) :
    (m.mapValues f).insert k (f v) = (m.insert k v).mapValues f := by
  simp [insert, mapValues, insertEntry_map]

end SortedMap

/-- The header with the offsets of its span moved by `g`. -/
def FunctionHeader.reoffset (g : Position → Nat) (h : FunctionHeader) : FunctionHeader :=
  { h with span := h.span.map (Span.reoffset g) }

/-- The definition with the offsets of its header and body moved by `g`. -/
def FunctionDefinition.reoffset (g : Position → Nat) (d : FunctionDefinition) :
    FunctionDefinition :=
  ⟨d.header.reoffset g, d.body.reoffset g⟩

/-- The program with the offsets of every definition moved by `g`. -/
def Program.reoffset (g : Position → Nat) (p : Program) : Program :=
  ⟨p.functions.mapValues (FunctionDefinition.reoffset g)⟩

/-- What inserting did, with the offsets of the definition it carries moved by `g`. -/
def InsertOutcome.reoffset (g : Position → Nat) : InsertOutcome → InsertOutcome
  | .inserted => .inserted
  | .replaced previous => .replaced (previous.reoffset g)
  | .rejected refused => .rejected (refused.reoffset g)

@[simp] theorem FunctionDefinition.reoffset_name (g : Position → Nat) (d : FunctionDefinition) :
    (d.reoffset g).name = d.name := rfl

@[simp] theorem Program.reoffset_count (g : Position → Nat) (p : Program) :
    (p.reoffset g).count = p.count := SortedMap.size_mapValues _ _

/-- Inserting commutes with moving offsets: the same outcome, with the same name. -/
theorem Program.insert_reoffset (g : Position → Nat) (p : Program) (d : FunctionDefinition)
    (policy : DuplicatePolicy) :
    (p.reoffset g).insert (d.reoffset g) policy =
      ((p.insert d policy).1.reoffset g, (p.insert d policy).2.reoffset g) := by
  unfold Program.insert Program.insertAs Program.reoffset
  simp only [FunctionDefinition.reoffset_name, SortedMap.get?_mapValues,
    SortedMap.insert_mapValues]
  cases p.functions.get? d.name <;> cases policy <;> rfl

/-! ## Findings, events and failures -/

/-- The finding with the offsets of its span moved by `g`. -/
def Diagnostic.reoffset (g : Position → Nat) (d : Diagnostic) : Diagnostic :=
  { d with span := d.span.reoffset g }

/-- The event with the offsets of its span, if any, moved by `g`. -/
def LogEvent.reoffset (g : Position → Nat) (e : LogEvent) : LogEvent :=
  { e with span := e.span.map (Span.reoffset g) }

/-- An event without a span has no offsets to move. -/
theorem LogEvent.reoffset_of_span_eq_none {g : Position → Nat} {e : LogEvent} (h : e.span = none) :
    e.reoffset g = e := by
  cases e
  cases h
  rfl

theorem LogEvent.withSpan_reoffset (g : Position → Nat) (e : LogEvent) (s : Span) :
    (e.withSpan s).reoffset g = (e.reoffset g).withSpan (s.reoffset g) := rfl

@[simp] theorem LogEvent.withFields_reoffset (g : Position → Nat) (e : LogEvent)
    (fields : List (String × String)) :
    (e.withFields fields).reoffset g = (e.reoffset g).withFields fields := rfl

@[simp] theorem LogEvent.debug_reoffset (g : Position → Nat) (message : String) :
    (LogEvent.debug message).reoffset g = LogEvent.debug message := rfl

@[simp] theorem LogEvent.success_reoffset (g : Position → Nat) (code message : String) :
    (LogEvent.success code message).reoffset g = LogEvent.success code message := rfl

@[simp] theorem Program.reoffset_empty (g : Position → Nat) : Program.reoffset g {} = {} := rfl

/-- The failure with the offsets of its span moved by `g`. -/
def SyntaxError.reoffset (g : Position → Nat) : SyntaxError → SyntaxError
  | .unmatchedBlockDelimiter d s => .unmatchedBlockDelimiter d (s.reoffset g)
  | .maxBlockDepth m s => .maxBlockDepth m (s.reoffset g)
  | .duplicateFunction n s => .duplicateFunction n (s.reoffset g)

namespace Analysis

/-! ## Reading a block -/

theorem length_map_le_length_map {α β : Type} (f : α → β) {l l' : List α}
    (h : l.length ≤ l'.length) : (l.map f).length ≤ (l'.map f).length := by
  simpa using h

/-- The block read, with every offset moved by `g`, as a reading of the moved tokens. -/
def Body.reoffset (g : Position → Nat) {ts : List Token} (b : Body ts) :
    Body (ts.map (Token.reoffset g)) :=
  ⟨b.block.reoffset g, b.unclosed.map (Token.reoffset g),
    ⟨b.rest.1.map (Token.reoffset g), length_map_le_length_map _ b.rest.2⟩⟩

@[simp] theorem Body.reoffset_block (g : Position → Nat) {ts : List Token} (b : Body ts) :
    (b.reoffset g).block = b.block.reoffset g := rfl

@[simp] theorem Body.reoffset_unclosed (g : Position → Nat) {ts : List Token} (b : Body ts) :
    (b.reoffset g).unclosed = b.unclosed.map (Token.reoffset g) := rfl

@[simp] theorem Body.reoffset_rest (g : Position → Nat) {ts : List Token} (b : Body ts) :
    (b.reoffset g).rest.1 = b.rest.1.map (Token.reoffset g) := rfl

@[simp] theorem isBrace_reoffset (g : Position → Nat) (t : Token) :
    isBrace (t.reoffset g) = isBrace t := rfl

theorem dropWhile_reoffset (g : Position → Nat) (ts : List Token) :
    (ts.map (Token.reoffset g)).dropWhile (fun t => !isBrace t) =
      (ts.dropWhile (fun t => !isBrace t)).map (Token.reoffset g) := by
  rw [List.dropWhile_map]
  rfl

/-- The tokens from the next brace on are tokens of the block. -/
theorem mem_of_dropWhile_eq_cons {ts rest : List Token} {t : Token}
    (h : ts.dropWhile (fun t => !isBrace t) = t :: rest) : ∀ x ∈ t :: rest, x ∈ ts :=
  fun _ hx => (List.dropWhile_suffix _).subset (h ▸ hx)

section Items

variable {A : Position → Prop} {g : Position → Nat} {strict : Bool} {m : Nat} {fin : Span}

theorem items_reoffset (hg : Relabels A g) (hfin : fin.Within A) {d : Nat} {o : Token}
    {ch : Array Block} {u ts : List Token} (ho : o.span.Within A)
    (hts : ∀ t ∈ ts, t.span.Within A) :
    Body.items strict m (fin.reoffset g) d (o.reoffset g) (ch.map (Block.reoffset g))
        (u.map (Token.reoffset g)) (ts.map (Token.reoffset g)) =
      ((Body.items strict m fin d o ch u ts).map (Body.reoffset g)).mapError
        (Prod.map (SyntaxError.reoffset g) (LogEvent.reoffset g)) := by
  -- one case per branch of the reader: the moved tokens reach the moved brace, so their
  -- reading takes the same branch, and the other branch of the split is impossible
  fun_induction Body.items strict m fin d o ch u ts with
  | case1 _ _ _ _ ts hnil hstrict =>
    rw [Body.items]
    split
    · rw [if_pos hstrict]
      rfl
    · next heq => simp [dropWhile_reoffset, hnil] at heq
  | case2 _ _ _ _ ts hnil hstrict =>
    rw [Body.items]
    split
    · rw [if_neg hstrict]
      simp [Except.map, Except.mapError, Body.reoffset, Span.merge_reoffset hg ho hfin]
    · next heq => simp [dropWhile_reoffset, hnil] at heq
  | case3 _ _ _ _ ts t rest hcons hclose =>
    have ht : t.span.Within A := hts t (mem_of_dropWhile_eq_cons hcons t (by simp))
    rw [Body.items]
    split
    · next heq => simp [dropWhile_reoffset, hcons] at heq
    · next heq =>
      rw [dropWhile_reoffset, hcons, List.map_cons, List.cons.injEq] at heq
      obtain ⟨rfl, rfl⟩ := heq
      rw [Token.reoffset_kind, if_pos hclose]
      simp [Except.map, Except.mapError, Body.reoffset, Span.merge_reoffset hg ho ht]
  | case4 _ _ _ _ ts t rest hcons hclose hdepth =>
    rw [Body.items]
    split
    · next heq => simp [dropWhile_reoffset, hcons] at heq
    · next heq =>
      rw [dropWhile_reoffset, hcons, List.map_cons, List.cons.injEq] at heq
      obtain ⟨rfl, rfl⟩ := heq
      rw [Token.reoffset_kind, if_neg hclose, if_pos hdepth]
      rfl
  | case5 _ _ _ u ts t rest hcons hclose hdepth e hc ihc =>
    have hsub := mem_of_dropWhile_eq_cons hcons
    have hchild := ihc (hts t (hsub t (by simp))) (fun x hx => hts x (hsub x (by simp [hx])))
    simp only [Array.map_empty, List.map_nil, hc] at hchild
    rw [Body.items]
    split
    · next heq => simp [dropWhile_reoffset, hcons] at heq
    · next heq =>
      rw [dropWhile_reoffset, hcons, List.map_cons, List.cons.injEq] at heq
      obtain ⟨rfl, rfl⟩ := heq
      rw [Token.reoffset_kind, if_neg hclose, if_neg hdepth, hchild]
      rfl
  | case6 _ _ _ u ts t rest hcons hclose hdepth c hc e hb ihc ihb =>
    have hsub := mem_of_dropWhile_eq_cons hcons
    have hrest : ∀ x ∈ rest, x.span.Within A := fun x hx => hts x (hsub x (by simp [hx]))
    have hchild := ihc (hts t (hsub t (by simp))) hrest
    simp only [Array.map_empty, List.map_nil, hc] at hchild
    have hafter := ihb ho (fun x hx => hrest x (by
      rw [items_rest hc] at hx
      exact List.mem_of_mem_drop hx))
    simp only [Array.map_push, List.map_append, hb] at hafter
    rw [Body.items]
    split
    · next heq => simp [dropWhile_reoffset, hcons] at heq
    · next heq =>
      rw [dropWhile_reoffset, hcons, List.map_cons, List.cons.injEq] at heq
      obtain ⟨rfl, rfl⟩ := heq
      rw [Token.reoffset_kind, if_neg hclose, if_neg hdepth, hchild]
      simp only [Except.map, Except.mapError, Body.reoffset_block, Body.reoffset_unclosed,
        Body.reoffset_rest, hafter]
  | case7 _ _ _ u ts t rest hcons hclose hdepth c hc b hb ihc ihb =>
    have hsub := mem_of_dropWhile_eq_cons hcons
    have ht : t.span.Within A := hts t (hsub t (by simp))
    have hrest : ∀ x ∈ rest, x.span.Within A := fun x hx => hts x (hsub x (by simp [hx]))
    have hchild := ihc ht hrest
    simp only [Array.map_empty, List.map_nil, hc] at hchild
    have hafter := ihb ho (fun x hx => hrest x (by
      rw [items_rest hc] at hx
      exact List.mem_of_mem_drop hx))
    simp only [Array.map_push, List.map_append, hb] at hafter
    rw [Body.items]
    split
    · next heq => simp [dropWhile_reoffset, hcons] at heq
    · next heq =>
      rw [dropWhile_reoffset, hcons, List.map_cons, List.cons.injEq] at heq
      obtain ⟨rfl, rfl⟩ := heq
      rw [Token.reoffset_kind, if_neg hclose, if_neg hdepth, hchild]
      simp only [Except.map, Except.mapError, Body.reoffset_block, Body.reoffset_unclosed,
        Body.reoffset_rest, hafter]
      rfl

theorem enter_reoffset (hg : Relabels A g) (hfin : fin.Within A) {d : Nat} {o : Token}
    {ts : List Token} (ho : o.span.Within A) (hts : ∀ t ∈ ts, t.span.Within A) :
    Body.enter strict m (fin.reoffset g) d (o.reoffset g) (ts.map (Token.reoffset g)) =
      ((Body.enter strict m fin d o ts).map (Body.reoffset g)).mapError
        (Prod.map (SyntaxError.reoffset g) (LogEvent.reoffset g)) := by
  unfold Body.enter
  split
  · rfl
  · have h : Body.items strict m (fin.reoffset g) d (o.reoffset g)
        ((#[] : Array Block).map (Block.reoffset g)) (([] : List Token).map (Token.reoffset g))
        (ts.map (Token.reoffset g)) = _ := items_reoffset hg hfin ho hts
    simpa using h

/-- The span of a block read runs between places of its opener, its closing brace and the end of
    input. -/
theorem items_span_within (hfin : fin.Within A) {d : Nat} {o : Token} {ch : Array Block}
    {u ts : List Token} {b : Body ts} (ho : o.span.Within A) (hts : ∀ t ∈ ts, t.span.Within A)
    (h : Body.items strict m fin d o ch u ts = .ok b) : ∀ s ∈ b.block.span, s.Within A := by
  fun_induction Body.items strict m fin d o ch u ts with
  | case1 => cases h
  | case2 =>
    cases h
    rintro s ⟨⟩
    exact Span.merge_within ho hfin
  | case3 _ _ _ _ ts t rest hcons =>
    cases h
    rintro s ⟨⟩
    exact Span.merge_within ho (hts t (mem_of_dropWhile_eq_cons hcons t (by simp)))
  | case4 => cases h
  | case5 => cases h
  | case6 => cases h
  | case7 _ _ _ u ts t rest hcons hclose hdepth c hc b' hb' ihc ihb =>
    cases h
    have hsub := mem_of_dropWhile_eq_cons hcons
    exact ihb ho (fun x hx => hts x (hsub x (by
      rw [items_rest hc] at hx
      exact List.mem_cons_of_mem _ (List.mem_of_mem_drop hx)))) hb'

theorem enter_span_within (hfin : fin.Within A) {d : Nat} {o : Token} {ts : List Token}
    {b : Body ts} (ho : o.span.Within A) (hts : ∀ t ∈ ts, t.span.Within A)
    (h : Body.enter strict m fin d o ts = .ok b) : ∀ s ∈ b.block.span, s.Within A :=
  items_span_within hfin ho hts (items_of_enter h)

end Items

/-! ## The scan -/

/-- The decision with the offsets of its tokens moved by `g`. -/
def Lead.reoffset (g : Position → Nat) : Lead → Lead
  | .signature n p c o inBody =>
    .signature (n.reoffset g) (p.reoffset g) (c.reoffset g) (o.reoffset g)
      (inBody.map (Token.reoffset g))
  | .skip message at_ rest => .skip message (at_.reoffset g) (rest.map (Token.reoffset g))

theorem lead_reoffset (g : Position → Nat) (t : Token) (rest : List Token) :
    lead (t.reoffset g) (rest.map (Token.reoffset g)) = (lead t rest).reoffset g := by
  -- the tests of `lead` read kinds and texts only, which moving offsets keeps
  have hkinds : ∀ (x : Token) (k : TokenKind), ((x.reoffset g).kind = k) = (x.kind = k) :=
    fun _ _ => rfl
  rcases rest with _ | ⟨n, _ | ⟨p, afterParen⟩⟩
  · rfl
  · rfl
  simp only [List.map_cons, lead, hkinds]
  by_cases hnp : n.kind = .identifier ∧ p.kind = .openingParenthesis
  case neg =>
    rw [if_neg hnp, if_neg hnp]
    rfl
  rw [if_pos hnp, if_pos hnp]
  rcases afterParen with _ | ⟨c, afterClose⟩
  · rfl
  simp only [List.map_cons, hkinds]
  by_cases hc : c.kind = .closingParenthesis
  case neg =>
    rw [if_neg hc, if_neg hc]
    rfl
  rw [if_pos hc, if_pos hc]
  rcases afterClose with _ | ⟨o, inBody⟩
  · rfl
  simp only [List.map_cons, hkinds]
  by_cases ho : o.kind = .openingCurlyBrace
  · rw [if_pos ho, if_pos ho]
    rfl
  · rw [if_neg ho, if_neg ho]
    rfl

/-- The findings with every offset moved by `g`. -/
def Findings.reoffset (g : Position → Nat) (f : Findings) : Findings :=
  ⟨f.program.reoffset g, f.diagnostics.map (Diagnostic.reoffset g), f.dropped,
    f.log.map (LogEvent.reoffset g)⟩

/-- The run with the offsets of the end of input moved by `g`. -/
def Run.reoffset (g : Position → Nat) (r : Run) : Run := { r with finish := r.finish.reoffset g }

@[simp] theorem Run.reoffset_settings (g : Position → Nat) (r : Run) :
    (r.reoffset g).settings = r.settings := rfl

@[simp] theorem Run.reoffset_file (g : Position → Nat) (r : Run) : (r.reoffset g).file = r.file :=
  rfl

@[simp] theorem Run.reoffset_finish (g : Position → Nat) (r : Run) :
    (r.reoffset g).finish = r.finish.reoffset g := rfl

section Findings

variable {A : Position → Prop} {g : Position → Nat} {r : Run} {f : Findings}

theorem note_reoffset (e : LogEvent) : (f.note e).reoffset g = (f.reoffset g).note (e.reoffset g) := by
  simp [Findings.reoffset, Findings.note, Array.map_push]

/-- Stopping commutes with moving offsets. -/
theorem halt_reoffset (h : SyntaxError × LogEvent) :
    Prod.map (SyntaxError.reoffset g) (Findings.reoffset g) (f.halt h) =
      (f.reoffset g).halt (Prod.map (SyntaxError.reoffset g) (LogEvent.reoffset g) h) := by
  simp only [Findings.halt, Prod.map, note_reoffset]

theorem report_reoffset (d : Diagnostic) :
    (f.report d).reoffset g = (f.reoffset g).report (d.reoffset g) := by
  unfold Findings.report
  by_cases hfull : f.diagnostics.size ≥ Limits.standard.maxDiagnostics
  · rw [if_pos hfull, if_pos (by simpa [Findings.reoffset] using hfull)]
    rfl
  · rw [if_neg hfull, if_neg (by simpa [Findings.reoffset] using hfull)]
    simp [Findings.reoffset, Array.map_push]

/-- Logging an event without a span commutes with moving offsets. -/
theorem note_reoffset_of_span_eq_none {e : LogEvent} (h : e.span = none) :
    (f.reoffset g).note e = (f.note e).reoffset g := by
  rw [note_reoffset, LogEvent.reoffset_of_span_eq_none h]

theorem skipped_reoffset (message : String) (at_ : Token) :
    skipped (r.reoffset g) (f.reoffset g) message (at_.reoffset g) =
      (skipped r f message at_).reoffset g := by
  unfold skipped
  by_cases hs : r.settings.mode.isStrict = true
  · rw [if_pos (show (r.reoffset g).settings.mode.isStrict = true from hs), if_pos hs,
      report_reoffset]
    rfl
  · rw [if_neg (show ¬ (r.reoffset g).settings.mode.isStrict = true from hs), if_neg hs,
      note_reoffset, LogEvent.reoffset_of_span_eq_none rfl]

theorem unclosedEvent_reoffset (o : Token) :
    unclosedEvent (o.reoffset g) = (unclosedEvent o).reoffset g := rfl

theorem foldl_unclosed_reoffset (os : List Token) :
    (os.map (Token.reoffset g)).foldl (fun f o => f.note (unclosedEvent o)) (f.reoffset g) =
      (os.foldl (fun f o => f.note (unclosedEvent o)) f).reoffset g := by
  induction os generalizing f with
  | nil => rfl
  | cons o os ih => simp only [List.map_cons, List.foldl_cons, unclosedEvent_reoffset, ← note_reoffset, ih]

theorem recognizedEvent_reoffset (t : Token) (h : FunctionHeader) :
    recognizedEvent (r.reoffset g) (t.reoffset g) (h.reoffset g) = recognizedEvent r t h := rfl

theorem recognizedEvent_span (t : Token) (h : FunctionHeader) :
    (recognizedEvent r t h).span = none := by
  unfold recognizedEvent
  split <;> rfl

theorem span?_reoffset (hg : Relabels A g) {d : FunctionDefinition}
    (hh : ∀ s ∈ d.header.span, s.Within A) (hb : ∀ s ∈ d.body.span, s.Within A) :
    (d.reoffset g).span? = d.span?.map (Span.reoffset g) := by
  obtain ⟨⟨name, params, ret, hs⟩, ⟨cs, term, bs⟩⟩ := d
  cases hs with
  | none => cases bs <;> rfl
  | some h =>
    cases bs with
    | none => rfl
    | some b =>
      simp only [FunctionDefinition.span?, FunctionDefinition.reoffset, FunctionHeader.reoffset,
        Block.reoffset_mk, Option.map_some]
      rw [Span.merge_reoffset hg (hh h rfl) (hb b rfl)]

/-- Recording commutes with moving offsets, given the spans of the definition are among the
    places relabelled. -/
theorem record_reoffset (hg : Relabels A g) {d : FunctionDefinition}
    (hh : ∀ s ∈ d.header.span, s.Within A) (hb : ∀ s ∈ d.body.span, s.Within A) :
    record (r.reoffset g) (f.reoffset g) (d.reoffset g) =
      ((record r f d).map (Findings.reoffset g)).mapError
        (Prod.map (SyntaxError.reoffset g) (Findings.reoffset g)) := by
  have hspan : ((d.reoffset g).span?).getD Span.dummy = (d.span?.getD Span.dummy).reoffset g := by
    rw [span?_reoffset hg hh hb]
    cases d.span? with
    | none => exact (Span.dummy_reoffset hg).symm
    | some s => rfl
  unfold record
  rw [show (f.reoffset g).program = f.program.reoffset g from rfl, Run.reoffset_settings,
    Run.reoffset_file, Program.insert_reoffset, hspan]
  generalize f.program.insert d r.settings.policy = x
  obtain ⟨outcome, p⟩ := x
  cases outcome with
  | inserted => rfl
  | replaced previous =>
    simp only [InsertOutcome.reoffset, FunctionDefinition.reoffset_name]
    by_cases hs : r.settings.mode.isStrict = true
    · rw [if_pos hs, if_pos hs]
      simp only [Except.map, Except.mapError, report_reoffset, note_reoffset]
      rfl
    · rw [if_neg hs, if_neg hs]
      simp only [Except.map, Except.mapError, note_reoffset]
      rfl
  | rejected refused =>
    -- the refusal is logged with its span moved
    exact congrArg Except.error (halt_reoffset (f := f) (duplicateHalt refused.name _)).symm

theorem signatureHeader_reoffset (hg : Relabels A g) {t n c : Token} (ht : t.span.Within A)
    (hc : c.span.Within A) :
    signatureHeader (t.reoffset g) (n.reoffset g) (c.reoffset g) =
      (signatureHeader t n c).reoffset g := by
  simp only [signatureHeader, FunctionHeader.reoffset, Token.reoffset_text, Token.reoffset_span,
    Option.map_some, Span.merge_reoffset hg ht hc]

end Findings

section Scan

variable {A : Position → Prop} {g : Position → Nat}

/-- The scan commutes with moving offsets: on the moved tokens it takes the same steps, and
    finds and logs the same things with their offsets moved. -/
theorem scan_reoffset (hg : Relabels A g) {r : Run} (hfin : r.finish.Within A) {ts : List Token}
    (hts : ∀ t ∈ ts, t.span.Within A) (f : Findings) :
    scan (r.reoffset g) (f.reoffset g) (ts.map (Token.reoffset g)) =
      ((scan r f ts).map (Findings.reoffset g)).mapError
        (Prod.map (SyntaxError.reoffset g) (Findings.reoffset g)) := by
  cases ts with
  | nil =>
    rw [List.map_nil, scan_nil, scan_nil]
    rfl
  | cons t rest =>
    have hrest : ∀ x ∈ rest, x.span.Within A := fun x hx => hts x (List.mem_cons_of_mem _ hx)
    -- the scan decides on kinds and texts only, so the moved tokens take the same branch
    have ht' : (t.reoffset g).kind = t.kind := rfl
    by_cases ht : t.kind = .dataType
    case neg =>
      rw [List.map_cons, scan_pass (ht' ▸ ht), scan_pass ht]
      exact scan_reoffset hg hfin hrest f
    cases hlead : lead t rest with
    | skip message at_ rest' =>
      have hlead' := lead_reoffset g t rest
      rw [hlead] at hlead'
      rw [List.map_cons, scan_skip (ht' ▸ ht) hlead', scan_skip ht hlead, skipped_reoffset]
      have hlen := lead_skip_length hlead
      obtain ⟨pre, hsplit, -⟩ := lead_eq_skip hlead
      exact scan_reoffset hg hfin (fun x hx => hrest x (by rw [hsplit]; exact List.mem_append_right _ hx)) _
    | signature n p c o inBody =>
      have hlead' := lead_reoffset g t rest
      rw [hlead] at hlead'
      obtain ⟨rfl, -⟩ := lead_eq_signature_iff.1 hlead
      have hwithin : ∀ x ∈ [n, p, c, o], x.span.Within A := fun x hx => hrest x (by
        simp only [List.mem_cons, List.mem_nil_iff, or_false] at hx
        rcases hx with rfl | rfl | rfl | rfl <;> simp)
      have hin : ∀ x ∈ inBody, x.span.Within A := fun x hx => hrest x (by simp [hx])
      have henter : Body.enter r.settings.mode.isStrict r.settings.maxDepth (r.finish.reoffset g) 0
          (o.reoffset g) (inBody.map (Token.reoffset g)) = _ :=
        enter_reoffset hg hfin (hwithin o (by simp)) hin
      cases hb : Body.enter r.settings.mode.isStrict r.settings.maxDepth r.finish 0 o inBody with
      | error e =>
        rw [hb] at henter
        rw [List.map_cons, scan_body_error (ht' ▸ ht) hlead' henter, scan_body_error ht hlead hb]
        exact congrArg Except.error (halt_reoffset e).symm
      | ok body =>
        rw [hb] at henter
        rw [List.map_cons, scan_body_ok (ht' ▸ ht) hlead' henter, scan_body_ok ht hlead hb]
        have hheader := signatureHeader_reoffset (n := n) hg (hts t (by simp)) (hwithin c (by simp))
        simp only [Body.reoffset_unclosed, Body.reoffset_block, Body.reoffset_rest, hheader,
          foldl_unclosed_reoffset, recognizedEvent_reoffset]
        -- the definition recorded is the moved one, and its spans are places of `A`, which
        -- recording compares only by their order
        rw [note_reoffset_of_span_eq_none (recognizedEvent_span t _),
          show (⟨(signatureHeader t n c).reoffset g, body.block.reoffset g⟩ : FunctionDefinition) =
            FunctionDefinition.reoffset g ⟨signatureHeader t n c, body.block⟩ from rfl,
          record_reoffset hg (fun s hs => by
            simp only [signatureHeader, Option.mem_def, Option.some.injEq] at hs
            subst hs
            exact Span.merge_within (hts t (by simp)) (hwithin c (by simp)))
          (enter_span_within hfin (hwithin o (by simp)) hin hb)]
        cases hrec : record r _ ⟨signatureHeader t n c, body.block⟩ with
        | error eg => rfl
        | ok f' =>
          obtain ⟨pre, hpre⟩ := enter_rest_suffix hb
          have hlen := body.rest.2
          exact scan_reoffset hg hfin (fun x hx => hin x (by rw [hpre]; exact List.mem_append_right _ hx)) f'
termination_by ts.length
decreasing_by
  all_goals subst_vars
  all_goals simp only [List.length_cons, List.length_append]
  all_goals omega

end Scan

end Analysis

/-! ## The analysis -/

/-- The result with every offset moved by `g`. -/
def AnalysisResult.reoffset (g : Position → Nat) (a : AnalysisResult) : AnalysisResult :=
  ⟨a.program.reoffset g, a.diagnostics.map (Diagnostic.reoffset g), a.dropped⟩

/-- The outcome and the log with every offset moved by `g`. -/
def Analysis.reoffset (g : Position → Nat) (a : Analysis) : Analysis :=
  ⟨(a.result.map (AnalysisResult.reoffset g)).mapError (SyntaxError.reoffset g),
    a.log.map (LogEvent.reoffset g)⟩

section Tokens

variable {A : Position → Prop} {g : Position → Nat}

theorem endSpanOf_reoffset (hg : Relabels A g) (ts : List Token) :
    endSpanOf (ts.map (Token.reoffset g)) = (endSpanOf ts).reoffset g := by
  unfold endSpanOf
  rw [List.getLast?_map]
  cases ts.getLast? with
  | none => exact (Span.dummy_reoffset hg).symm
  | some t => rfl

theorem endSpanOf_within (hg : Relabels A g) {ts : List Token}
    (hts : ∀ t ∈ ts, t.span.Within A) : (endSpanOf ts).Within A := by
  unfold endSpanOf
  cases hlast : ts.getLast? with
  | none => exact ⟨hg.start_mem, hg.start_mem⟩
  | some t =>
    have ht := hts t (List.mem_of_getLast? hlast)
    exact ⟨ht.2, ht.2⟩

/-- The analysis commutes with moving offsets: the moved tokens give the same outcome and the
    same log, with their offsets moved. -/
theorem analyzeTokens_reoffset (hg : Relabels A g) (s : AnalysisSettings) {ts : List Token}
    (hts : ∀ t ∈ ts, t.span.Within A) :
    analyzeTokens s (ts.map (Token.reoffset g)) = (analyzeTokens s ts).reoffset g := by
  unfold analyzeTokens
  dsimp only
  rw [List.length_map, endSpanOf_reoffset hg]
  cases ts with
  | nil =>
    -- no token: the findings are fixed, and the one diagnostic sits at the start of the text
    simp only [List.map_nil, List.isEmpty_nil, if_true, endSpanOf, List.getLast?_nil,
      Span.dummy_reoffset hg, Analysis.scan_nil]
    by_cases hs : s.mode.isStrict = true
    · simp [hs, Analysis.reoffset, AnalysisResult.reoffset, Analysis.Findings.report,
        Analysis.Findings.note, Diagnostic.reoffset, Span.dummy_reoffset hg, Limits.standard,
        Except.map, Except.mapError]
    · simp [hs, Analysis.reoffset, AnalysisResult.reoffset, Analysis.Findings.note, Except.map,
        Except.mapError]
  | cons t rest =>
    have hscan := Analysis.scan_reoffset hg (r := ⟨s, t.location.file, endSpanOf (t :: rest)⟩)
      (endSpanOf_within hg hts) hts
    simp only [List.isEmpty_cons, Bool.false_eq_true, if_false, List.map_cons] at hscan ⊢
    obtain ⟨f₀, hf₀⟩ : ∃ f₀, f₀ = ({ log := #[(LogEvent.debug "Creating grammar analyzer").withFields
        [("tokens", toString (t :: rest).length)]] } : Analysis.Findings) := ⟨_, rfl⟩
    rw [← hf₀]
    have hmoved : Analysis.scan ⟨s, (t.reoffset g).location.file, (endSpanOf (t :: rest)).reoffset g⟩
        f₀ (t.reoffset g :: rest.map (Token.reoffset g)) =
        ((Analysis.scan ⟨s, t.location.file, endSpanOf (t :: rest)⟩ f₀ (t :: rest)).map
          (Analysis.Findings.reoffset g)).mapError
          (Prod.map (SyntaxError.reoffset g) (Analysis.Findings.reoffset g)) := by
      have h := hscan f₀
      rwa [show Analysis.Findings.reoffset g f₀ = f₀ by
        subst hf₀
        simp [Analysis.Findings.reoffset]] at h
    rw [hmoved]
    cases Analysis.scan ⟨s, t.location.file, endSpanOf (t :: rest)⟩ f₀ (t :: rest) with
    | ok f =>
      simp [Except.map, Except.mapError, Analysis.reoffset, AnalysisResult.reoffset,
        Analysis.Findings.reoffset]
    | error ef =>
      obtain ⟨e, f⟩ := ef
      simp [Except.map, Except.mapError, Analysis.reoffset, Analysis.Findings.reoffset]

end Tokens

end COutline
