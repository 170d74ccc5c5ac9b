import COutline.Config.Preferences
import COutline.Token.Basic

/-!
# Lexing metrics

Counts gathered while lexing one text: tokens overall and by kind, comments, lines, and — when
the preferences ask for detailed metrics — skipped characters and the byte lengths of the
longest identifier, string literal and comment.
-/

namespace COutline

/-- What one lexing run counted. -/
structure LexMetrics where
  totalTokens : Nat := 0
  /-- Occurrences of each kind that occurred, in kind order. -/
  tokensByKind : SortedMap TokenKind Nat := .empty
  commentCount : Nat := 0
  lineCount : Nat := 0
  skippedChars : Nat := 0
  maxIdentifierLength : Nat := 0
  maxStringLength : Nat := 0
  maxCommentLength : Nat := 0
deriving Repr, Inhabited

namespace LexMetrics

/-- Count one token. -/
def record (p : LexicalPreferences) (m : LexMetrics) (t : Token) : LexMetrics :=
  let m := { m with
    totalTokens := m.totalTokens + 1
    tokensByKind := m.tokensByKind.modify t.kind 0 (· + 1)
    commentCount := if t.kind = .comment then m.commentCount + 1 else m.commentCount }
  if p.collectDetailedMetrics then
    let len := t.text.utf8ByteSize
    match t.kind with
    | .identifier => { m with maxIdentifierLength := max m.maxIdentifierLength len }
    | .stringLiteral => { m with maxStringLength := max m.maxStringLength len }
    | .comment => { m with maxCommentLength := max m.maxCommentLength len }
    | _ => m
  else m

/-- Count one skipped character. -/
def skip (p : LexicalPreferences) (m : LexMetrics) : LexMetrics :=
  if p.collectDetailedMetrics then { m with skippedChars := m.skippedChars + 1 } else m

/-- The number of tokens of kind `k`. -/
def countOf (m : LexMetrics) (k : TokenKind) : Nat := (m.tokensByKind.get? k).getD 0

end LexMetrics

end COutline
