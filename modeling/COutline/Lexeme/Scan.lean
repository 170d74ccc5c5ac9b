import COutline.Text.Utf8

/-!
# Lexeme classes

Each class looks at the unread rest of a source text and says how much of it one lexeme of
that class takes: nothing (`noMatch`), a complete lexeme (`matched n`), or a lexeme that opened
and never closed before the end (`unterminated n`, always the whole rest).  The classes here
measure in characters; `Scan.inBytes` restates a result in UTF-8 bytes.

* identifiers: the longest run of ASCII letters, digits and `_`;
* numbers: the longest run of ASCII digits;
* string literals: from `"` to the first `"` not taken by a backslash — a backslash takes the
  next character, whatever it is, into the literal;
* line comments: from `//` up to, not including, the first carriage return or line feed;
* block comments: from `/*` through the first `*/` whose star follows the opener and is not
  itself the second character of an earlier star pair — after a star, any character other than
  `/` is consumed and the search for a star starts again after it, so `/*/` and `/* **/` stay
  open while `/* */` and `/* ***/` close.
-/

namespace COutline

/-- What one lexeme class finds at the head of a text. -/
inductive Scan where
  /-- The class does not start here. -/
  | noMatch
  /-- A complete lexeme of this length. -/
  | matched (n : Nat)
  /-- The lexeme opened but the text ended first; the length is the whole rest. -/
  | unterminated (n : Nat)
deriving Repr, DecidableEq, Inhabited

namespace Scan

/-- The same result with character counts of `cs` restated as byte counts. -/
def inBytes (cs : List Char) : Scan → Scan
  | noMatch => noMatch
  | matched n => matched (Utf8.size (cs.take n))
  | unterminated n => unterminated (Utf8.size (cs.take n))

/-- `matched n` for a non-empty run, `noMatch` for an empty one. -/
def ofRun (n : Nat) : Scan := if n = 0 then noMatch else matched n

end Scan

namespace Lexeme

/-- Only an ASCII letter opens an identifier (a leading `_` is not claimed by any class). -/
def isIdentifierStart (c : Char) : Bool := c.isAlpha

/-- ASCII letters, digits and `_` continue an identifier. -/
def isIdentifierContinue (c : Char) : Bool := c.isAlphanum || c == '_'

/-- Characters that end a line comment. -/
def endsLine (c : Char) : Bool := c == '\r' || c == '\n'

/-- The longest run of identifier characters. -/
def identifier (cs : List Char) : Scan := Scan.ofRun (cs.takeWhile isIdentifierContinue).length

/-- The longest run of decimal digits. -/
def number (cs : List Char) : Scan := Scan.ofRun (cs.takeWhile Char.isDigit).length

/-- Inside a string literal, `n` characters read so far: the length through the closing
    quote, or `none` when the text ends first. -/
def stringBody : List Char → Nat → Option Nat
  | [], _ => none
  | ['\\'], _ => none
  | '\\' :: _ :: cs, n => stringBody cs (n + 2)
  | c :: cs, n => if c = '"' then some (n + 1) else stringBody cs (n + 1)

/-- A double-quoted literal, backslash escapes kept verbatim. -/
def stringLiteral : List Char → Scan
  | '"' :: cs =>
    match stringBody cs 1 with
    | some n => .matched n
    | none => .unterminated (cs.length + 1)
  | _ => .noMatch

/-- `//` through, not including, the next carriage return or line feed. -/
def lineComment : List Char → Scan
  | '/' :: '/' :: cs => .matched (2 + (cs.takeWhile (fun c => !endsLine c)).length)
  | _ => .noMatch

/-- Inside a block comment, `n` characters read so far, `afterStar` when the last one read
    was a star that may close: the length through the closing slash, or `none`. -/
def blockBody : List Char → Bool → Nat → Option Nat
  | [], _, _ => none
  | c :: cs, false, n => blockBody cs (c = '*') (n + 1)
  | c :: cs, true, n => if c = '/' then some (n + 1) else blockBody cs false (n + 1)

/-- `/*` through the first closing `*/` after the opener, delimiters included. -/
def blockComment : List Char → Scan
  | '/' :: '*' :: cs =>
    match blockBody cs false 2 with
    | some n => .matched n
    | none => .unterminated (cs.length + 2)
  | _ => .noMatch

/-! ## Every complete lexeme is non-empty -/

theorem stringBody_gt {cs : List Char} {k n : Nat} (h : stringBody cs k = some n) : k < n := by
  fun_induction stringBody cs k <;> simp_all <;> omega

theorem blockBody_gt {cs : List Char} {b : Bool} {k n : Nat} (h : blockBody cs b k = some n) :
    k < n := by
  fun_induction blockBody cs b k <;> simp_all <;> omega

theorem ofRun_pos {m n : Nat} (h : Scan.ofRun m = .matched n) : 0 < n := by
  unfold Scan.ofRun at h
  split at h
  · simp at h
  · simp at h; omega

theorem identifier_pos {cs : List Char} {n : Nat} (h : identifier cs = .matched n) : 0 < n :=
  ofRun_pos h

theorem number_pos {cs : List Char} {n : Nat} (h : number cs = .matched n) : 0 < n :=
  ofRun_pos h

theorem stringLiteral_pos {cs : List Char} {n : Nat} (h : stringLiteral cs = .matched n) :
    0 < n := by
  unfold stringLiteral at h
  split at h
  · split at h
    · rename_i hb; simp at h; have := stringBody_gt hb; omega
    · simp at h
  · simp at h

theorem lineComment_pos {cs : List Char} {n : Nat} (h : lineComment cs = .matched n) :
    0 < n := by
  unfold lineComment at h
  split at h
  · simp at h; omega
  · simp at h

theorem blockComment_pos {cs : List Char} {n : Nat} (h : blockComment cs = .matched n) :
    0 < n := by
  unfold blockComment at h
  split at h
  · split at h
    · rename_i hb; simp at h; have := blockBody_gt hb; omega
    · simp at h
  · simp at h

end Lexeme

end COutline
