import COutline.Toml.Document
import COutline.Text.Quote

/-!
# Errors of TOML reading

A `TomlError` has a message, the keys leading to the offending value (outermost first) and,
when known, the byte range it concerns.  Its report names the line and column of the range's
start, shows that line, and underlines the range:

```
TOML parse error at line 2, column 15
  |
2 | strict_mode = 1
  |               ^
invalid type: integer `1`, expected a boolean
```

Lines count from one; the column counts characters from one, except that a range starting on
a character of several bytes counts the bytes before it.  The underline is at least one `^`
and stops one past the end of the line.  Without a range the report is the message followed by
the keys.
-/

namespace COutline

namespace Toml

/-- A failure to read a TOML document into a value. -/
structure TomlError where
  message : String
  keys : List String := []
  span : Option Range := none
  /-- Whether the error knows the document it is about (faults found after reading do not). -/
  withText : Bool := true
deriving Repr, Inhabited

/-- The zero-based line and column of byte `index` of `raw`. -/
def locate (raw : ByteArray) (index : Nat) : Nat × Nat :=
  if raw.size = 0 then (0, index)
  else
    let safe := min index (raw.size - 1)
    let past := index - safe
    let before := (raw.extract 0 safe).data.toList
    let lineStart := before.length - (before.reverse.takeWhile (· ≠ 10)).length
    let line := (before.take lineStart).countP (· = 10)
    let piece := raw.extract lineStart (safe + 1)
    let column := match String.fromUTF8? piece with
      | some s => s.length - 1
      | none => safe - lineStart
    (line, column + past)

/-- `n` blanks. -/
def blanks (n : Nat) : String := String.ofList (List.replicate n ' ')

namespace TomlError

/-- The report of `e` about the document `raw`. -/
def render (e : TomlError) (raw : String) : String :=
  match e.span with
  | some span =>
    let (line, column) := locate raw.toUTF8 span.start
    let lineNumber := toString (line + 1)
    let gutter := lineNumber.length
    let content := ((raw.splitOn "\n")[line]?).getD ""
    let width := min (span.stop - span.start) (content.utf8ByteSize - column)
    "TOML parse error at line " ++ lineNumber ++ ", column " ++ toString (column + 1) ++ "\n" ++
      blanks (gutter + 1) ++ "|\n" ++
      lineNumber ++ " | " ++ content ++ "\n" ++
      blanks (gutter + 1) ++ "|" ++ blanks (column + 1) ++ "^" ++
      String.ofList (List.replicate (width - 1) '^') ++ "\n" ++
      e.message ++ "\n"
  | none =>
    e.message ++ "\n" ++
      (if e.keys.isEmpty then "" else "in `" ++ ".".intercalate e.keys ++ "`\n")

/-- The record listing of `e` about `raw`, every string quoted. -/
def listing (e : TomlError) (raw : String) : String :=
  let span := match e.span with
    | some s => "Some(" ++ toString s.start ++ ".." ++ toString s.stop ++ ")"
    | none => "None"
  "TomlError \x7b message: " ++ Text.listed e.message ++ ", raw: " ++
    (if e.withText then "Some(" ++ Text.listed raw ++ ")" else "None") ++ ", keys: [" ++ ", ".intercalate (e.keys.map Text.listed) ++ "], span: " ++ span ++ " \x7d"

end TomlError

end Toml

end COutline
