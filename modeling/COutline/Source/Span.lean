import COutline.Source.Position

/-!
# Spans of source text

A `Span` is the stretch of text from a start position (included) to a stop position
(excluded).  Merging two spans takes the earlier start and the later stop, judged by byte
offset; on a tie the second span's end wins.  A span shows as `line:col-col` when it stays on
one line and as `line:col-line:col` otherwise.
-/

namespace COutline

/-- The text between `start` (included) and `stop` (excluded). -/
structure Span where
  /-- The first place covered. -/
  start : Position
  /-- The first place after the span. -/
  stop : Position
deriving Repr, DecidableEq, Inhabited

namespace Span

/-- The empty span at `p`. -/
def point (p : Position) : Span := ⟨p, p⟩

/-- The empty span at the start of the text, for values that come from no source. -/
def dummy : Span := point Position.start

/-- The span from the earlier start to the later stop (by byte offset). -/
def merge (a b : Span) : Span :=
  ⟨if a.start.offset < b.start.offset then a.start else b.start,
   if a.stop.offset > b.stop.offset then a.stop else b.stop⟩

/-- The byte length; `none` when the stop lies before the start. -/
def length? (s : Span) : Option Nat :=
  if s.start.offset ≤ s.stop.offset then some (s.stop.offset - s.start.offset) else none

/-- Whether the span covers no byte. -/
def isEmpty (s : Span) : Bool := s.start.offset == s.stop.offset

/-- Whether the byte at `p` lies inside the span. -/
def contains (s : Span) (p : Position) : Bool :=
  s.start.offset ≤ p.offset && p.offset < s.stop.offset

/-- The text covered in `source`; empty when the byte range does not fall between characters
    of `source`. -/
def slice (s : Span) (source : String) : String :=
  match Utf8.slice? source.toList s.start.offset s.stop.offset with
  | some cs => String.ofList cs
  | none => ""

/-- `l:c1-c2` on one line, `l1:c1-l2:c2` across lines. -/
def render (s : Span) : String :=
  if s.start.line = s.stop.line then
    toString s.start.line ++ ":" ++ toString s.start.column ++ "-" ++ toString s.stop.column
  else s.start.render ++ "-" ++ s.stop.render

/-- The span covering the characters `cs` read from `p`. -/
def covering (p : Position) (cs : List Char) : Span := ⟨p, p.advanceList cs⟩

end Span

end COutline
