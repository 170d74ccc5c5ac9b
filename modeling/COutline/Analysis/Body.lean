import COutline.Analysis.Diagnostic
import COutline.Log.Event
import COutline.Outline.Basic

/-!
# Brace trees of function bodies

`Body.enter` reads the block opened by a `{` that has just been taken: every token that is no
brace is passed over, a `{` opens a nested block (one level deeper), and the first `}` that no
nested block takes closes the block.  Nesting is limited: a `{` whose nesting index (0 for a
body's own brace) reaches `maxDepth` stops the analysis.  When the tokens run out first, strict
mode stops with an unmatched delimiter at the innermost open brace, and lenient mode closes
every open block as unterminated, reaching to `finish`, and lists their opening braces,
innermost first.  A stop carries the error together with the event logged where it was raised.

Each result carries the tokens left after the block, never more than were given, so the
caller's scan provably ends.
-/

namespace COutline

namespace Analysis

/-- The tokens left after reading a prefix of `ts`. -/
abbrev Rest (ts : List Token) := { r : List Token // r.length ≤ ts.length }

/-- A block read from `ts`: the tree, the opening braces never closed (innermost first), and
    the tokens after it. -/
structure Body (ts : List Token) where
  block : Block
  unclosed : List Token
  rest : Rest ts

/-- What is said of a block whose opening brace `opener` is never closed, at the line the brace
    was read on. -/
def unclosedMessage (opener : Token) : String :=
  "Block opened at line " ++ toString opener.location.line ++ " is never closed"

/-- The stop at the end of input inside the block opened by `opener`, in strict mode. -/
def unclosedHalt (opener : Token) : SyntaxError × LogEvent :=
  (.unmatchedBlockDelimiter opener.text opener.span,
    (LogEvent.error "E041" (unclosedMessage opener)).withSpan opener.span)

/-- The stop at the brace `brace` that would open a block at nesting index `depth`, reaching the
    limit `maxDepth`. -/
def tooDeepHalt (maxDepth depth : Nat) (brace : Token) : SyntaxError × LogEvent :=
  (.maxBlockDepth maxDepth brace.span,
    ((LogEvent.error "E044" "Maximum block depth exceeded").withSpan brace.span).withFields
      [("depth", toString (depth + 1)), ("max_depth", toString maxDepth)])

/-- Braces are the only tokens a body's tree is made of. -/
def isBrace (t : Token) : Bool :=
  t.kind == .openingCurlyBrace || t.kind == .closingCurlyBrace

theorem dropWhile_length_le (p : Token → Bool) (ts : List Token) :
    (ts.dropWhile p).length ≤ ts.length :=
  (List.dropWhile_suffix p).length_le

/-- What follows the first token kept by a `dropWhile` is shorter than the whole list. -/
theorem length_lt_of_dropWhile_eq_cons {p : Token → Bool} {ts rest : List Token} {t : Token}
    (h : ts.dropWhile p = t :: rest) : rest.length < ts.length := by
  have := dropWhile_length_le p ts
  rw [h] at this
  exact this

/-- Read the rest of the block opened by `opener` at nesting index `depth`, which already holds
    `children` and whose nested blocks left `unclosed` open. -/
def Body.items (strict : Bool) (maxDepth : Nat) (finish : Span) (depth : Nat) (opener : Token)
    (children : Array Block) (unclosed : List Token) (ts : List Token) :
    Except (SyntaxError × LogEvent) (Body ts) :=
  match h : ts.dropWhile (fun t => !isBrace t) with
  | [] =>
    if strict then .error (unclosedHalt opener)
    else .ok ⟨⟨children.toList, false, some (opener.span.merge finish)⟩, unclosed ++ [opener],
      ⟨[], Nat.zero_le _⟩⟩
  | t :: rest =>
    if t.kind = .closingCurlyBrace then
      .ok ⟨⟨children.toList, true, some (opener.span.merge t.span)⟩, unclosed,
        ⟨rest, Nat.le_of_lt (length_lt_of_dropWhile_eq_cons h)⟩⟩
    else if depth + 1 ≥ maxDepth then .error (tooDeepHalt maxDepth (depth + 1) t)
    else
      match Body.items strict maxDepth finish (depth + 1) t #[] [] rest with
      | .error e => .error e
      | .ok child =>
        match Body.items strict maxDepth finish depth opener (children.push child.block)
            (unclosed ++ child.unclosed) child.rest.1 with
        | .error e => .error e
        | .ok b => .ok ⟨b.block, b.unclosed, ⟨b.rest.1, Nat.le_trans b.rest.2
            (Nat.le_trans child.rest.2 (Nat.le_of_lt (length_lt_of_dropWhile_eq_cons h)))⟩⟩
termination_by ts.length
decreasing_by
  · exact length_lt_of_dropWhile_eq_cons h
  · exact Nat.lt_of_le_of_lt child.rest.2 (length_lt_of_dropWhile_eq_cons h)

/-- Read the block opened by `opener` (just taken) at nesting index `depth`. -/
def Body.enter (strict : Bool) (maxDepth : Nat) (finish : Span) (depth : Nat) (opener : Token)
    (ts : List Token) : Except (SyntaxError × LogEvent) (Body ts) :=
  if depth ≥ maxDepth then .error (tooDeepHalt maxDepth depth opener)
  else Body.items strict maxDepth finish depth opener #[] [] ts

end Analysis

end COutline
