import COutline.Config.Limits
import COutline.Token.Basic

/-!
# Lexical faults

The six ways lexing a compilation unit can fail.  Each fault has a code, a span and one
message; the limits quoted in messages are those of `Limits.standard`.
-/

namespace COutline

/-- Why a source text could not be lexed. -/
inductive LexError where
  /-- A `/*` comment reaches the end of the text. -/
  | unterminatedComment (loc : Location) (span : Span)
  /-- A string literal reaches the end of the text. -/
  | unterminatedString (loc : Location) (span : Span)
  /-- An identifier is longer than the limit, in bytes. -/
  | identifierTooLong (length : Nat) (loc : Location) (span : Span)
  /-- A string literal is larger than the limit, in bytes. -/
  | stringTooLarge (size : Nat) (loc : Location) (span : Span)
  /-- A comment is longer than the limit, in bytes. -/
  | commentTooLong (length : Nat) (loc : Location) (span : Span)
  /-- The text produces more counted tokens than the limit. -/
  | tooManyTokens (count : Nat) (span : Span)
deriving Repr, DecidableEq, Inhabited

namespace LexError

/-- The diagnostic code of the fault. -/
def code : LexError → String
  | unterminatedComment .. => "E020"
  | unterminatedString .. => "E021"
  | identifierTooLong .. => "E023"
  | stringTooLarge .. => "E024"
  | commentTooLong .. => "E026"
  | tooManyTokens .. => "E027"

/-- The text the fault covers. -/
def span : LexError → Span
  | unterminatedComment _ s | unterminatedString _ s | identifierTooLong _ _ s
  | stringTooLarge _ _ s | commentTooLong _ _ s | tooManyTokens _ s => s

/-- The message shown for the fault. -/
def message : LexError → String
  | unterminatedComment l _ => "Unterminated multi-line comment starting at " ++ l.render
  | unterminatedString l _ => "Unterminated string literal starting at " ++ l.render
  | identifierTooLong n l _ =>
    "Identifier too long at " ++ l.render ++ ": " ++ toString n ++ " characters (max " ++
      toString Limits.standard.maxIdentifierLength ++ ")"
  | stringTooLarge n l _ =>
    "String literal too large at " ++ l.render ++ ": " ++ toString n ++ " bytes (max " ++
      toString Limits.standard.maxStringSize ++ ")"
  | commentTooLong n l _ =>
    "Comment too long at " ++ l.render ++ ": " ++ toString n ++ " bytes (max " ++
      toString Limits.standard.maxCommentLength ++ ")"
  | tooManyTokens n _ =>
    "Too many tokens: " ++ toString n ++ " (max " ++ toString Limits.standard.maxTokenCount ++ ")"

end LexError

end COutline
