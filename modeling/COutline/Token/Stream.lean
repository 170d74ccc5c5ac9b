import COutline.Token.Basic

/-!
# Token streams

A `TokenStream` is a fixed sequence of tokens with a cursor that only moves forward.  The
cursor never passes the end (the bound is part of the type), so the number of tokens left is an
exact difference.  Taking a run of kinds is all or nothing: either every kind matches, in order,
and the cursor moves past the whole run, or nothing is taken.

`layout` places tokens that did not come from a source text: on one line, one blank between
neighbours, each token's end found by reading its text.
-/

namespace COutline

/-- Tokens with a forward-only cursor. -/
structure TokenStream where
  tokens : Array Token
  cursor : Nat := 0
  cursor_le : cursor ≤ tokens.size := by omega

namespace TokenStream

/-- The stream over `ts`, at its start. -/
def ofList (ts : List Token) : TokenStream := { tokens := ts.toArray }

/-- Whether tokens are left. -/
def hasMore (s : TokenStream) : Bool := s.cursor < s.tokens.size

/-- The next token, without moving. -/
def peek? (s : TokenStream) : Option Token := s.tokens[s.cursor]?

/-- The kind of the next token. -/
def peekKind? (s : TokenStream) : Option TokenKind := s.peek?.map (·.kind)

/-- Indices are machine words: their sums wrap around at `2 ^ 64`. -/
def wordModulus : Nat := 18446744073709551616

/-- The token `n` places after the next one (`0` is the next one).  The place is the word sum
    of the cursor and `n`, so an `n` near `2 ^ 64` wraps around to a place before the cursor. -/
def peekNth? (s : TokenStream) (n : Nat) : Option Token :=
  s.tokens[(s.cursor + n) % wordModulus]?

/-- Take the next token, if any. -/
def next (s : TokenStream) : Option Token × TokenStream :=
  if h : s.cursor < s.tokens.size then
    (some s.tokens[s.cursor], { s with cursor := s.cursor + 1, cursor_le := h })
  else (none, s)

/-- Take the next token only when it has kind `k`. -/
def nextIfKind (s : TokenStream) (k : TokenKind) : Option Token × TokenStream :=
  if s.peekKind? = some k then s.next else (none, s)

/-- Take the next `ks.length` tokens when their kinds are `ks`, in order; otherwise take
    nothing and answer the empty list. -/
def nextIfKinds (s : TokenStream) (ks : List TokenKind) : List Token × TokenStream :=
  let stop := s.cursor + ks.length
  if h : stop ≤ s.tokens.size then
    let run := (s.tokens.extract s.cursor stop).toList
    if (run.zip ks).all (fun (t, k) => t.kind == k) then
      (run, { s with cursor := stop, cursor_le := h })
    else ([], s)
  else ([], s)

/-- How many tokens have been taken. -/
def position (s : TokenStream) : Nat := s.cursor

/-- How many tokens are left. -/
def remaining (s : TokenStream) : Nat := s.tokens.size - s.cursor

/-- How many tokens the stream holds, taken or not. -/
def length (s : TokenStream) : Nat := s.tokens.size

/-- Whether the stream holds no token at all. -/
def isEmpty (s : TokenStream) : Bool := s.tokens.isEmpty

/-- The tokens not yet taken. -/
def rest (s : TokenStream) : List Token := (s.tokens.extract s.cursor s.tokens.size).toList

/-- The empty span just after the last token, or at the start of the text when there is none. -/
def endSpan (s : TokenStream) : Span :=
  match s.tokens.back? with
  | some t => Span.point t.span.stop
  | none => Span.dummy

/-- A new stream, at its start, of the tokens not yet taken that are not comments. -/
def withoutComments (s : TokenStream) : TokenStream :=
  ofList (s.rest.filter fun t => !t.kind.isIgnorable)

/-- Tokens of the given kinds and texts in `file`, on one line with one blank between
    neighbours; a line feed inside a text moves the rest to a new line. -/
def layout (file : String) (items : List (TokenKind × String)) : List Token :=
  let step := fun (acc : Position × Array Token) (item : TokenKind × String) =>
    let start := if acc.2.isEmpty then acc.1 else acc.1.advance ' '
    let stop := start.advanceStr item.2
    (stop, acc.2.push (Token.make item.1 item.2 file ⟨start, stop⟩))
  (items.foldl step (Position.start, #[])).2.toList

end TokenStream

end COutline
