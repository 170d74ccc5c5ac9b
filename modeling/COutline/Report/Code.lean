/-!
# The diagnostic code registry

Every error and warning code of this library has a category, a severity, a one-line
description and a recommended action.  A code that is not registered reads as severity
medium, category `Unknown`, and has no specific action.
-/

namespace COutline

/-- How serious a coded problem is. -/
inductive Severity where
  | high
  | medium
  | low
deriving Repr, DecidableEq, Inhabited

/-- `High`, `Medium` or `Low`. -/
def Severity.name : Severity → String
  | .high => "High"
  | .medium => "Medium"
  | .low => "Low"

/-- What the registry knows about one code. -/
structure CodeInfo where
  code : String
  category : String
  severity : Severity
  description : String
  action : String
deriving Repr, Inhabited

namespace CodeInfo

/-- Every registered code. -/
def registry : List CodeInfo := [
  ⟨"E010", "Input", .high, "Source file could not be read",
    "Verify the path exists and is readable UTF-8 text"⟩,
  ⟨"E020", "Lexical", .high, "Multi-line comment is never closed", "Add the closing */ delimiter"⟩,
  ⟨"E021", "Lexical", .high, "String literal is never closed", "Add the closing double quote"⟩,
  ⟨"E023", "Lexical", .medium, "Identifier exceeds the configured maximum length",
    "Shorten the identifier"⟩,
  ⟨"E024", "Lexical", .medium, "String literal exceeds the configured maximum size",
    "Split the literal or raise max_string_size"⟩,
  ⟨"E026", "Lexical", .medium, "Comment exceeds the configured maximum length",
    "Shorten the comment or raise max_comment_length"⟩,
  ⟨"E027", "Lexical", .high, "Compilation unit produces too many tokens",
    "Split the source or raise max_token_count"⟩,
  ⟨"E040", "Syntax", .low, "Token stream contains no analyzable tokens",
    "Provide at least one function definition"⟩,
  ⟨"E041", "Syntax", .high, "Opening curly brace has no matching closing brace",
    "Add the missing \x7d"⟩,
  ⟨"E042", "Syntax", .medium, "Function name is defined more than once",
    "Rename or remove one of the definitions"⟩,
  ⟨"E044", "Syntax", .high, "Block nesting exceeds the configured maximum depth",
    "Reduce brace nesting or raise max_block_depth"⟩,
  ⟨"W040", "Syntax", .low, "Top-level construct was skipped",
    "Only function definitions are recognized at top level"⟩,
  ⟨"W041", "Syntax", .medium, "Block reached end of input without a closing brace",
    "Add the missing \x7d or enable strict mode to reject the input"⟩,
  ⟨"W042", "Syntax", .low, "Later function definition replaced an earlier one",
    "Rename one of the functions"⟩]

/-- The registry entry of `code`. -/
def find? (code : String) : Option CodeInfo := registry.find? (·.code == code)

/-- The text of "no registered action". -/
def noAction : String := "No specific action available"

/-- What the registry says of `code`, with the defaults for an unknown code. -/
def of (code : String) : CodeInfo :=
  (find? code).getD ⟨code, "Unknown", .medium, "Unknown error", noAction⟩

end CodeInfo

end COutline
