import COutline.Compile.Basic
import COutline.Proofs.Lexer.Blanking

/-!
# Comments are invisible past the lexer

The analysis reads a stream with its comments dropped, so a compilation is the analysis of the
tokens that are no comment (`compileSource_result`).  Blanking the comments of a text that
lexes gives a text that lexes to exactly those tokens, with their byte offsets moved by
`blankedOffset`, which keeps the order of the places tokens start and end at; and the analysis
does not look at offsets beyond their order (`analyzeTokens_reoffset`).  So every configuration
compiles the two texts alike, failing with the same error or finding the same program and
diagnostics, up to that one renumbering of byte offsets (`compileSource_blankComments`).
-/

namespace COutline

theorem TokenStream.rest_ofList (ts : List Token) : (TokenStream.ofList ts).rest = ts := by
  simp [TokenStream.rest, TokenStream.ofList]

/-- The analysis of a stream reads the tokens that are no comment. -/
theorem analyzeStream_result (p : AnalyzerPreferences) (ts : List Token) :
    (analyzeStream p (TokenStream.ofList ts)).result =
      (analyzeTokens (.ofPreferences p) (ts.filter fun t => !t.isComment)).result := by
  unfold analyzeStream
  dsimp only
  split <;> rw [TokenStream.withoutComments, TokenStream.rest_ofList] <;> rfl

@[simp] theorem Analysis.reoffset_result (g : Position → Nat) (a : Analysis) :
    (a.reoffset g).result = (a.result.map (AnalysisResult.reoffset g)).mapError (SyntaxError.reoffset g) :=
  rfl

/-- Once the text lexes, a compilation is the analysis of the tokens that are no comment. -/
theorem compileSource_result {c : RuntimeConfig} {source file : String} {r : Lexed}
    (h : tokenize c.lexical source file = .ok r) :
    (compileSource c source file).result =
      ((analyzeTokens (.ofPreferences c.analyzer) (r.tokens.filter fun t => !t.isComment)).result.map
        fun found => (⟨file, r.tokens, found.program, found.diagnostics, found.dropped, r.metrics⟩ :
          Compilation)).mapError .analysis := by
  unfold compileSource
  rw [h]
  dsimp only
  rw [← analyzeStream_result]
  split
  · next e he => rw [he]; rfl
  · next found hf => rw [hf]; rfl

/-- The spans of a derivation from the start of a text begin and end between its characters. -/
theorem Lexer.Trace.span_within {file : String} {source : List Char} {ts : List Token}
    (h : Lexer.Trace file Position.start source ts) : ∀ t ∈ ts, t.span.Within (Boundary source) := by
  intro t ht
  obtain ⟨a, r, kind, n, hn, hsrc, -, rfl⟩ := h.exists_of_mem ht
  refine ⟨⟨a, r, hsrc, rfl⟩, ⟨a ++ r.take n, r.drop n, ?_, ?_⟩⟩
  · rw [hsrc, List.append_assoc, List.take_append_drop]
  · rw [Position.advanceList_append]
    rfl

theorem filter_not_isComment_reoffset (g : Position → Nat) (ts : List Token) :
    ((ts.filter fun t => !t.isComment).map (Token.reoffset g)).filter (fun t => !t.isComment) =
      (ts.filter fun t => !t.isComment).map (Token.reoffset g) := by
  rw [List.filter_eq_self]
  intro t ht
  obtain ⟨u, hu, rfl⟩ := List.mem_map.1 ht
  exact (List.mem_filter.1 hu).2

/-- Comments are invisible past the lexer: blanking every character of a comment but the line
    feeds leaves a text that lexes to the tokens that are no comment, with their kinds, texts,
    lines and columns, and that every configuration compiles as it compiles the text itself:
    failing with the same analysis error, or finding the same program and diagnostics, all up to
    one renumbering of byte offsets. -/
theorem compileSource_blankComments {source file : String} {r : Lexed}
    (hfit : Utf8.size source.toList < Position.offsetRange)
    (h : tokenize {} source file = .ok r) :
    ∃ g : Position → Nat,
      (∃ r', tokenize {} (blankComments source r.tokens) file = .ok r' ∧
        r'.tokens = (r.tokens.filter fun t => !t.isComment).map (Token.reoffset g)) ∧
      ∀ c : RuntimeConfig,
        (∀ e, (compileSource c source file).result = .error e →
          ∃ e', e = .analysis e' ∧ (compileSource c (blankComments source r.tokens) file).result =
            .error (.analysis (e'.reoffset g))) ∧
        (∀ x, (compileSource c source file).result = .ok x →
          ∃ x', (compileSource c (blankComments source r.tokens) file).result = .ok x' ∧
            x'.program = x.program.reoffset g ∧
            x'.diagnostics = x.diagnostics.map (Diagnostic.reoffset g) ∧ x'.dropped = x.dropped) := by
  obtain ⟨g, hg⟩ : ∃ g, blankedOffset (insideComment r.tokens) source.toList = g := ⟨_, rfl⟩
  have hrel : Relabels (Boundary source.toList) g := hg ▸ relabels_blankedOffset hfit
  have hwithin : ∀ t ∈ r.tokens.filter (fun t => !t.isComment), t.span.Within (Boundary source.toList) :=
    fun t ht => (Lexer.tokenize_trace h).span_within t (List.mem_filter.1 ht).1
  refine ⟨g, hg ▸ tokenize_blankComments hfit h {}, fun c => ?_⟩
  have hdef : ∃ r', tokenize c.lexical source file = .ok r' ∧ r'.tokens = r.tokens :=
    tokenize_of_default h
  obtain ⟨r₁, h₁, ht₁⟩ := hdef
  obtain ⟨r₂, h₂, ht₂⟩ := tokenize_blankComments hfit h c.lexical
  rw [hg] at ht₂
  -- both compile to the analysis of the same tokens, the second with its offsets moved
  have hmoved : analyzeTokens (.ofPreferences c.analyzer)
      ((r.tokens.filter fun t => !t.isComment).map (Token.reoffset g)) =
      (analyzeTokens (.ofPreferences c.analyzer) (r.tokens.filter fun t => !t.isComment)).reoffset g :=
    analyzeTokens_reoffset hrel _ hwithin
  have hres₁ := compileSource_result h₁
  have hres₂ := compileSource_result h₂
  rw [ht₁] at hres₁
  rw [ht₂, filter_not_isComment_reoffset, hmoved, Analysis.reoffset_result] at hres₂
  cases hA : (analyzeTokens (.ofPreferences c.analyzer) (r.tokens.filter fun t => !t.isComment)).result with
  | error e' =>
    rw [hA] at hres₁ hres₂
    refine ⟨fun e he => ?_, fun x hx => ?_⟩
    · rw [hres₁] at he
      cases he
      exact ⟨e', rfl, hres₂⟩
    · rw [hres₁] at hx
      cases hx
  | ok found =>
    rw [hA] at hres₁ hres₂
    refine ⟨fun e he => ?_, fun x hx => ?_⟩
    · rw [hres₁] at he
      cases he
    · rw [hres₁] at hx
      cases hx
      exact ⟨_, hres₂, rfl, rfl, rfl⟩

/-- A comment right after an identifier and one holding a two-byte character: blanking them
    moves the later offsets back by one byte and changes nothing else. -/
theorem compileSource_blankComments_adjacent :
    ∃ r, Utf8.size "int f(){x/*é*/;}//c\n".toList < Position.offsetRange ∧
      tokenize {} "int f(){x/*é*/;}//c\n" "f.c" = .ok r ∧
      ∃ g : Position → Nat,
        (∃ r', tokenize {} (blankComments "int f(){x/*é*/;}//c\n" r.tokens) "f.c" = .ok r' ∧
          r'.tokens = (r.tokens.filter fun t => !t.isComment).map (Token.reoffset g)) ∧
        ∀ c : RuntimeConfig,
          (∀ e, (compileSource c "int f(){x/*é*/;}//c\n" "f.c").result = .error e →
            ∃ e', e = .analysis e' ∧
              (compileSource c (blankComments "int f(){x/*é*/;}//c\n" r.tokens) "f.c").result =
                .error (.analysis (e'.reoffset g))) ∧
          (∀ x, (compileSource c "int f(){x/*é*/;}//c\n" "f.c").result = .ok x →
            ∃ x', (compileSource c (blankComments "int f(){x/*é*/;}//c\n" r.tokens) "f.c").result =
                .ok x' ∧
              x'.program = x.program.reoffset g ∧
              x'.diagnostics = x.diagnostics.map (Diagnostic.reoffset g) ∧
              x'.dropped = x.dropped) := by
  have hfit : Utf8.size "int f(){x/*é*/;}//c\n".toList < Position.offsetRange := by decide
  have hok : (tokenize {} "int f(){x/*é*/;}//c\n" "f.c").toBool = true := by decide +kernel
  cases h : tokenize {} "int f(){x/*é*/;}//c\n" "f.c" with
  | error e => simp [h, Except.toBool] at hok
  | ok r => exact ⟨r, hfit, rfl, compileSource_blankComments hfit h⟩

end COutline
