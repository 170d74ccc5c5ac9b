/-!
# Token kinds

The thirteen categories of token.  Each kind has a fixed upper-case name, used wherever a kind
is shown or read back, and a place in the declaration order, which orders per-kind counts.
-/

namespace COutline

/-- The category of a token. -/
inductive TokenKind where
  | invalid
  | keyword
  | identifier
  | constant
  | stringLiteral
  | operator
  | punctuator
  | comment
  /-- A reserved word that names a type (`int`, `char`, `struct`, …). -/
  | dataType
  | openingParenthesis
  | closingParenthesis
  | openingCurlyBrace
  | closingCurlyBrace
deriving Repr, DecidableEq, Inhabited

namespace TokenKind

/-- Every kind, in declaration order. -/
def all : List TokenKind :=
  [invalid, keyword, identifier, constant, stringLiteral, operator, punctuator, comment,
   dataType, openingParenthesis, closingParenthesis, openingCurlyBrace, closingCurlyBrace]

/-- The place of a kind in declaration order. -/
def index : TokenKind → Nat
  | invalid => 0
  | keyword => 1
  | identifier => 2
  | constant => 3
  | stringLiteral => 4
  | operator => 5
  | punctuator => 6
  | comment => 7
  | dataType => 8
  | openingParenthesis => 9
  | closingParenthesis => 10
  | openingCurlyBrace => 11
  | closingCurlyBrace => 12

/-- Kinds are ordered by declaration order. -/
instance : Ord TokenKind := ⟨fun a b => compare a.index b.index⟩

/-- The kind's upper-case name. -/
def name : TokenKind → String
  | invalid => "INVALID"
  | keyword => "KEYWORD"
  | identifier => "IDENTIFIER"
  | constant => "CONSTANT"
  | stringLiteral => "STRING_LITERAL"
  | operator => "OPERATOR"
  | punctuator => "PUNCTUATOR"
  | comment => "COMMENT"
  | dataType => "DATA_TYPE"
  | openingParenthesis => "OPENING_PARENTHESIS"
  | closingParenthesis => "CLOSING_PARENTHESIS"
  | openingCurlyBrace => "OPENING_CURLY_BRACE"
  | closingCurlyBrace => "CLOSING_CURLY_BRACE"

/-- The kind with the given upper-case name. -/
def ofName? (s : String) : Option TokenKind := all.find? (·.name == s)

/-- Kinds the analyser never needs to see: comments only. -/
def isIgnorable (k : TokenKind) : Bool := k == comment

/-- Reserved words, whether control keywords or type names. -/
def isReservedWord (k : TokenKind) : Bool := k == keyword || k == dataType

end TokenKind

end COutline
