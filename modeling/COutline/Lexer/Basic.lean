import COutline.Lexeme.Keyword
import COutline.Lexer.Error
import COutline.Lexer.Metrics

/-!
# The lexer

One left-to-right pass over the characters of a text.  At each place the head character picks
one rule, tried in this order:

* `/` — a line comment, else a block comment, else the operator `/`;
* `{ } ( )` — a brace or parenthesis; `[ ] ;` — a punctuator; `*` — an operator;
* `= ! < > | & + -` — an operator of two characters when the next two form one of the eleven
  pairs, of one otherwise;
* a digit — a constant; `"` — a string literal;
* an ASCII letter — a reserved word (whole words only), else an identifier;
* anything else is skipped, one character at a time.

Every rule takes at least one character, so the pass ends.  Comments are kept as tokens.  The
first unterminated comment or string, or the first lexeme over a size limit, ends the pass with
a fault; so does the counted token that goes past `Limits.standard.maxTokenCount` (a comment is
counted only when the preferences say so).
-/

namespace COutline

namespace Lexer

/-- A fault found at the head of the text, before it is placed. -/
inductive Fault where
  | unterminatedComment
  | unterminatedString
  | commentTooLong
  | stringTooLarge
  | identifierTooLong
deriving Repr, DecidableEq, Inhabited

/-- What the lexer does at the head of the unread text: skip one character, take a lexeme of
    `n ≥ 1` characters, or stop with a fault over the first `n` characters. -/
inductive Step where
  | skip
  | token (kind : TokenKind) (n : Nat) (pos : 0 < n)
  | fault (f : Fault) (n : Nat)

/-- The eleven two-character operators. -/
def pairOperators : List String :=
  ["==", "!=", "<=", "<<", ">=", ">>", "||", "&&", "++", "--", "->"]

/-- Characters that open an operator of one or two characters. -/
def opensOperatorPair (c : Char) : Bool := "=!<>|&+-".toList.contains c

/-- Two when the first two characters form a pair operator, else one. -/
def operatorLength : List Char → Nat
  | a :: b :: _ => if pairOperators.contains (String.ofList [a, b]) then 2 else 1
  | _ => 1

theorem operatorLength_pos (cs : List Char) : 0 < operatorLength cs := by
  unfold operatorLength
  split
  · split <;> decide
  · decide

/-- A complete comment of `n` characters, unless it is over the byte limit. -/
def comment (cs : List Char) (n : Nat) (h : 0 < n) : Step :=
  if Utf8.size (cs.take n) > Limits.standard.maxCommentLength then .fault .commentTooLong n
  else .token .comment n h

/-- A line comment, a block comment, or the operator `/`. -/
def slash (cs : List Char) : Step :=
  match h : Lexeme.lineComment cs with
  | .matched n => comment cs n (Lexeme.lineComment_pos h)
  | _ =>
    match h' : Lexeme.blockComment cs with
    | .matched n => comment cs n (Lexeme.blockComment_pos h')
    | .unterminated n => .fault .unterminatedComment n
    | .noMatch => .token .operator 1 Nat.one_pos

/-- A string literal, unless it is unterminated or over the byte limit. -/
def string (cs : List Char) : Step :=
  match h : Lexeme.stringLiteral cs with
  | .matched n =>
    if Utf8.size (cs.take n) > Limits.standard.maxStringSize then .fault .stringTooLarge n
    else .token .stringLiteral n (Lexeme.stringLiteral_pos h)
  | .unterminated n => .fault .unterminatedString n
  | .noMatch => .token .stringLiteral 1 Nat.one_pos

/-- An identifier of `n` characters, unless it is over the byte limit. -/
def identifier (cs : List Char) (n : Nat) (h : 0 < n) : Step :=
  if Utf8.size (cs.take n) > Limits.standard.maxIdentifierLength then
    .fault .identifierTooLong n
  else .token .identifier n h

/-- A reserved word standing as a whole word, else an identifier. -/
def word (cs : List Char) : Step :=
  match h : ReservedWord.atHead? cs with
  | some r => .token r.kind r.word.length (ReservedWord.atHead?_word_pos h)
  | none =>
    match h' : Lexeme.identifier cs with
    | .matched n => identifier cs n (Lexeme.identifier_pos h')
    | _ => identifier cs 1 Nat.one_pos

/-- A constant: the longest run of digits. -/
def constant (cs : List Char) : Step :=
  match h : Lexeme.number cs with
  | .matched n => .token .constant n (Lexeme.number_pos h)
  | _ => .token .constant 1 Nat.one_pos

/-- The rule the head character picks. -/
def step (cs : List Char) : Step :=
  match cs with
  | [] => .skip
  | c :: _ =>
    if c = '/' then slash cs
    else if c = '{' then .token .openingCurlyBrace 1 Nat.one_pos
    else if c = '}' then .token .closingCurlyBrace 1 Nat.one_pos
    else if c = '(' then .token .openingParenthesis 1 Nat.one_pos
    else if c = ')' then .token .closingParenthesis 1 Nat.one_pos
    else if c = '[' ∨ c = ']' ∨ c = ';' then .token .punctuator 1 Nat.one_pos
    else if c = '*' then .token .operator 1 Nat.one_pos
    else if opensOperatorPair c then .token .operator (operatorLength cs) (operatorLength_pos cs)
    else if c.isDigit then constant cs
    else if c = '"' then string cs
    else if Lexeme.isIdentifierStart c then word cs
    else .skip

/-- The lexer's progress: where it stands, the tokens so far, how many of them count towards
    the limit, and the metrics. -/
structure Scanner where
  pos : Position
  tokens : Array Token
  counted : Nat
  metrics : LexMetrics

/-- The fault `f` over `lexeme`, read at `pos` in `file`. -/
def place (f : Fault) (file : String) (pos : Position) (lexeme : List Char) : LexError :=
  let loc := Location.ofPosition file pos
  let span := Span.covering pos lexeme
  match f with
  | .unterminatedComment => .unterminatedComment loc span
  | .unterminatedString => .unterminatedString loc span
  | .commentTooLong => .commentTooLong (Utf8.size lexeme) loc span
  | .stringTooLarge => .stringTooLarge (Utf8.size lexeme) loc span
  | .identifierTooLong => .identifierTooLong (Utf8.size lexeme) loc span

/-- Lex the unread characters `cs` of `file`, from scanner state `s`. -/
def run (p : LexicalPreferences) (file : String) (cs : List Char) (s : Scanner) :
    Except LexError Scanner :=
  match cs with
  | [] => .ok s
  | c :: rest =>
    match step (c :: rest) with
    | .skip => run p file rest { s with pos := s.pos.advance c, metrics := s.metrics.skip p }
    | .token kind n _ =>
      let lexeme := (c :: rest).take n
      let span := Span.covering s.pos lexeme
      let tok := Token.make kind (String.ofList lexeme) file span
      let counts := !tok.isComment || p.countCommentsTowardsLimit
      let counted := if counts then s.counted + 1 else s.counted
      if counts && counted > Limits.standard.maxTokenCount then
        .error (.tooManyTokens counted span)
      else
        run p file ((c :: rest).drop n)
          ⟨span.stop, s.tokens.push tok, counted, s.metrics.record p tok⟩
    | .fault f n => .error (place f file s.pos ((c :: rest).take n))
termination_by cs.length
decreasing_by
  · simp
  · simp only [List.length_drop, List.length_cons]; omega

end Lexer

/-- The tokens of a text with the metrics of the pass that produced them. -/
structure Lexed where
  tokens : List Token
  metrics : LexMetrics
deriving Repr, Inhabited

/-- Lines of a text as the lexer counts them: none for the empty text, and a final line feed
    ends the last line rather than starting a new one.  The count is taken from the line of the
    last position, a 32-bit counter, and the correction for a final line feed wraps with it. -/
def lineCountOf (source : String) (last : Position) : Nat :=
  if source.isEmpty then 0
  else (last.line + Position.lineRange - (if source.endsWith "\n" then 1 else 0)) %
    Position.lineRange

/-- Lex `source`, read as the file `file`. -/
def tokenize (p : LexicalPreferences) (source file : String) : Except LexError Lexed :=
  match Lexer.run p file source.toList ⟨Position.start, #[], 0, {}⟩ with
  | .error e => .error e
  | .ok s => .ok ⟨s.tokens.toList, { s.metrics with lineCount := lineCountOf source s.pos }⟩

/-! ## Log events of a lexing run -/

namespace Lexer

/-- The event that opens a run. -/
def startEvent (source file : String) : LogEvent :=
  (LogEvent.debug "Starting lexical analysis").withFields
    [("file", file), ("bytes", toString source.utf8ByteSize),
     ("max_tokens_allowed", toString Limits.standard.maxTokenCount)]

/-- The short description a fault is logged under. -/
def faultSummary : LexError → String
  | .unterminatedComment .. => "Unterminated multi-line comment"
  | .commentTooLong .. => "Comment exceeds maximum length"
  | .unterminatedString .. => "Unterminated string literal"
  | .stringTooLarge .. => "String literal exceeds maximum size"
  | .identifierTooLong .. => "Identifier exceeds maximum length"
  | .tooManyTokens .. => "Token limit exceeded"

/-- The place a fault is located at, when it has one. -/
def faultLocation? : LexError → Option Location
  | .unterminatedComment l _ | .unterminatedString l _ | .identifierTooLong _ l _
  | .stringTooLarge _ l _ | .commentTooLong _ l _ => some l
  | .tooManyTokens .. => none

/-- The error event of a fault: with its span and position when the preferences ask for
    positions, with the file only otherwise; the token limit is always logged with its span. -/
def faultEvent (p : LexicalPreferences) (file : String) (e : LexError) : LogEvent :=
  let event := LogEvent.error e.code (faultSummary e)
  match faultLocation? e with
  | none =>
    (event.withSpan e.span).withFields
      [("file", file), ("max_tokens", toString Limits.standard.maxTokenCount)]
  | some l =>
    if p.includePositionInErrors then
      (event.withSpan e.span).withFields
        [("file", l.file), ("line", toString l.line), ("column", toString l.column)]
    else event.withFields [("file", l.file)]

/-- The event that closes a successful run. -/
def completedEvent (file : String) (r : Lexed) : LogEvent :=
  (LogEvent.success "I020" "Tokenization completed").withFields
    [("file", file), ("tokens", toString r.tokens.length),
     ("comments", toString r.metrics.commentCount), ("lines", toString r.metrics.lineCount)]

/-- The events a run of `tokenize p source file` logs, in order. -/
def events (p : LexicalPreferences) (source file : String) :
    Except LexError Lexed → List LogEvent
  | .ok r => [startEvent source file, completedEvent file r]
  | .error e => [startEvent source file, faultEvent p file e]

end Lexer

end COutline
