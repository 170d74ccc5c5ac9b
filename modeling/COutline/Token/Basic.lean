import COutline.Source.Span
import COutline.Token.Kind

/-!
# Tokens

A token is a kind, the exact text it was read from, the place it was read at (file, line,
column) and its span.  The place of a token made by `Token.make` is always the start of its
span.
-/

namespace COutline

/-- Where a token came from: file name, line and column. -/
structure Location where
  file : String
  line : Nat
  column : Nat
deriving Repr, DecidableEq, Inhabited

/-- The location of position `p` in `file`. -/
def Location.ofPosition (file : String) (p : Position) : Location := ⟨file, p.line, p.column⟩

/-- `file:line:column`. -/
def Location.render (l : Location) : String :=
  l.file ++ ":" ++ toString l.line ++ ":" ++ toString l.column

/-- A lexeme: its kind, its source text, where it starts, and the text it covers. -/
structure Token where
  kind : TokenKind
  /-- The exact source text read for this token. -/
  text : String
  location : Location
  span : Span
deriving Repr, DecidableEq, Inhabited

namespace Token

/-- The token of `kind` and `text` over `span` in `file`, located at the span's start. -/
def make (kind : TokenKind) (text : String) (file : String) (span : Span) : Token :=
  ⟨kind, text, Location.ofPosition file span.start, span⟩

/-- Whether the token has kind `k`. -/
def is (t : Token) (k : TokenKind) : Bool := t.kind == k

/-- Whether the token is a comment. -/
def isComment (t : Token) : Bool := t.kind == .comment

/-- `KIND = text`. -/
def render (t : Token) : String := t.kind.name ++ " = " ++ t.text

end Token

end COutline
