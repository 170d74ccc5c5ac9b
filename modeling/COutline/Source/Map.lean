import COutline.Source.Span

/-!
# Source maps: positions of offsets, lines of a text, caret snippets

A `SourceMap` is a named source text together with its line index: the byte offsets where lines
start, the first at 0 and the others one past each line feed.  It answers where a byte offset
lies (line and column), what a numbered line holds, and renders a diagnostic with the offending
line underlined.

`positionAt` clamps the offset to the end of the text, finds its line by a bisection search of
the line starts (an exact hit is the line that starts there, otherwise the line before the place
the offset would be inserted), and counts the characters from the line's start to the offset; an
offset inside a multi-byte character gets column 1.
-/

namespace COutline

/-- Bisection search for `key` in the ascending array `xs`: `.ok i` when it meets `xs[i] = key`,
    otherwise `.error i` with `i` the place where `key` would be inserted. -/
def binarySearch (xs : Array Nat) (key : Nat) : Except Nat Nat :=
  loop 0 xs.size (Nat.le_refl _)
where
  /-- Search `[lo, hi)`, `hi` within the array. -/
  loop (lo hi : Nat) (hhi : hi ≤ xs.size) : Except Nat Nat :=
    if hlt : lo < hi then
      let mid := lo + (hi - lo) / 2
      have hmid : mid < xs.size := by omega
      if xs[mid] < key then loop (mid + 1) hi hhi
      else if key < xs[mid] then loop lo mid (by omega)
      else .ok mid
    else .error lo
  termination_by hi - lo

/-- `starts` followed by one past every line feed of `cs`, whose first character is at byte
    `offset`. -/
def lineStartsFrom : List Char → Nat → Array Nat → Array Nat
  | [], _, starts => starts
  | c :: cs, offset, starts =>
    lineStartsFrom cs (offset + c.utf8Size) (if c = '\n' then starts.push (offset + 1) else starts)

/-- The byte offsets where the lines of `source` start. -/
def lineStartsOf (source : String) : Array Nat := lineStartsFrom source.toList 0 #[0]

/-- A source text with its display name and its line index. -/
structure SourceMap where
  /-- How the text is named in rendered diagnostics. -/
  name : String
  /-- The whole text. -/
  source : String
  /-- The byte offsets where lines start. -/
  lineStarts : Array Nat
  /-- The line index is the one the text gives. -/
  lineStarts_eq : lineStarts = lineStartsOf source
deriving Repr

/-- Drop every carriage return at the end of `cs`. -/
def SourceMap.trimCarriageReturns (cs : List Char) : List Char :=
  (cs.reverse.dropWhile (· = '\r')).reverse

namespace SourceMap

/-- The source map of `source`, named `name`. -/
def new (name source : String) : SourceMap := ⟨name, source, lineStartsOf source, rfl⟩

/-- The number of lines: one more than the number of line feeds. -/
def lineCount (m : SourceMap) : Nat := m.lineStarts.size

/-- The index of the line holding byte `offset`: the line found starting there, or else the one
    before the place where `offset` would be inserted among the line starts. -/
def lineIndex (m : SourceMap) (offset : Nat) : Nat :=
  match binarySearch m.lineStarts offset with
  | .ok i => i
  | .error i => i - 1

/-- The place of byte `offset`, clamped to the end of the text: its line, and one column more
    than the characters from the line's start to it (none when it falls inside a character);
    line and column are kept to the width of a position's counters. -/
def positionAt (m : SourceMap) (offset : Nat) : Position :=
  let offset := min offset m.source.utf8ByteSize
  let line := m.lineIndex offset
  -- the line start is always there: the first start is 0, below every offset
  let lineStart := m.lineStarts[line]?.getD 0
  let column := ((Utf8.slice? m.source.toList lineStart offset).map List.length).getD 0
  ⟨offset, (line + 1) % Position.lineRange, (column + 1) % Position.lineRange⟩

/-- Line `n` (from 1) without its line feed and trailing carriage returns: the text from its
    start to the next line's start less one, or to the end. -/
def line? (m : SourceMap) (n : Nat) : Option String :=
  if n = 0 then none
  else do
    let start ← m.lineStarts[n - 1]?
    let stop := (m.lineStarts[n]?.map (· - 1)).getD m.source.utf8ByteSize
    let cs ← Utf8.slice? m.source.toList start stop
    pure (String.ofList (trimCarriageReturns cs))

/-- A diagnostic: headline, location, and when the span's line exists, that line with carets
    under the span (at least one caret; to the end of the line for a span that leaves it). -/
def formatError (m : SourceMap) (span : Span) (code message : String) : String :=
  let head := "error[" ++ code ++ "]: " ++ message ++ "\n  --> " ++ m.name ++ ":" ++
    toString span.start.line ++ ":" ++ toString span.start.column ++ "\n"
  match m.line? span.start.line with
  | none => head
  | some text =>
    let number := toString span.start.line
    let pad := String.ofList (List.replicate number.length ' ')
    let indent := String.ofList (List.replicate (span.start.column - 1) ' ')
    let width :=
      if span.start.line = span.stop.line then span.stop.column - span.start.column
      else text.length - (span.start.column - 1)
    let carets := String.ofList (List.replicate (max width 1) '^')
    head ++ pad ++ " |\n" ++ number ++ " | " ++ text ++ "\n" ++ pad ++ " | " ++ indent ++
      carets ++ "\n"

end SourceMap

end COutline
