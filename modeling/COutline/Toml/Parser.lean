import COutline.Toml.Error
import COutline.Data.Bytes
import COutline.Text.Double

/-!
# Reading TOML text

`Toml.parse` reads a whole document into its root table or fails with the first syntax or
placement fault.  A fault has an offset, the contexts it was found in and possibly a cause;
its message is `invalid WHAT` for the innermost labelled context, then `expected A, B, …` for
every expectation met on the way out, then the cause, one per line:

```
invalid table header
expected `.`, `]`
```

The grammar is TOML 1.0: `#` comments, `[table]` and `[[array of tables]]` headers,
`key = value` lines with bare, quoted and dotted keys, basic and literal strings (also on
several lines), decimal, hexadecimal, octal and binary integers with `_` between digits,
floats (with `inf` and `nan`), booleans, dates and times, arrays and inline tables.

Faults of placement (a key or table defined twice, a dotted key running through a value) are
placed at the start of the offending line; a table header's faults are reported as an invalid
table header.  Depth is bounded: arrays and inline tables nest fewer than 80 levels and a
dotted key has fewer than 80 parts (`recursion limit exceeded`).  Every loop reads at least
one byte per round and takes the count of unread bytes as its fuel.
-/

namespace COutline

namespace Toml

/-- Where a fault was found. -/
inductive Context where
  /-- Inside a construct of this name (`table header`, `basic string`, …). -/
  | label (what : String)
  /-- Where this was expected (already written as shown: `` `.` ``, `newline`, …). -/
  | expected (what : String)
deriving Repr, DecidableEq, Inhabited

/-- A syntax fault; `committed` when no alternative may be tried instead. -/
structure Fault where
  offset : Nat
  contexts : List Context := []
  cause : Option String := none
  committed : Bool := false
deriving Repr, Inhabited

/-- `invalid WHAT`, `expected …` and the cause, on separate lines. -/
def Fault.message (f : Fault) : String :=
  let label := f.contexts.findSome? fun
    | .label s => some s
    | _ => none
  let expected := f.contexts.filterMap fun
    | .expected s => some s
    | _ => none
  let parts := (label.map ("invalid " ++ ·)).toList ++
    (if expected.isEmpty then [] else ["expected " ++ ", ".intercalate expected]) ++ f.cause.toList
  "\n".intercalate parts

/-- A reading step over the fixed document bytes. -/
abbrev Parse (α : Type) := ReaderT ByteArray (StateT Nat (Except Fault)) α

namespace Parse

/-- The byte under the cursor. -/
def peek? : Parse (Option UInt8) := do return (← read)[← get]?

/-- The byte `k` places after the cursor. -/
def peekAt? (k : Nat) : Parse (Option UInt8) := do return (← read)[(← get) + k]?

/-- Move past one byte. -/
def bump : Parse Unit := modify (· + 1)

/-- Move past `n` bytes. -/
def skip (n : Nat) : Parse Unit := modify (· + n)

/-- The unread byte count plus one. -/
def budget : Parse Nat := do return (← read).size - (← get) + 1

/-- Move past a run of bytes satisfying `p`; the run's length. -/
def run (p : UInt8 → Bool) : Parse Nat := do
  let i ← get
  let j := Bytes.runEnd p (← read) i
  set j
  pure (j - i)

/-- Whether the unread text starts with `s`. -/
def startsWith (s : String) : Parse Bool := do
  let b ← read
  let i ← get
  pure (b.extract i (i + s.utf8ByteSize) == s.toUTF8)

/-- The text of bytes `i … j`. -/
def slice (i j : Nat) : Parse String := do return Bytes.text (← read) i j

/-- Fail here, with the given contexts; alternatives may still be tried. -/
def failHere (cs : List Context := []) : Parse α := do throw { offset := ← get, contexts := cs }

/-- Fail here with no alternative left. -/
def failCut (cs : List Context := []) : Parse α := do
  throw { offset := ← get, contexts := cs, committed := true }

/-- Run `p`, adding `cs` (innermost first) to the contexts of its fault. -/
def within (cs : List Context) (p : Parse α) : Parse α :=
  tryCatch p fun f => throw { f with contexts := f.contexts ++ cs }

/-- Run `p`, committing to its fault. -/
def commit (p : Parse α) : Parse α := tryCatch p fun f => throw { f with committed := true }

/-- Run `p`; on a fault that allows alternatives, restore the cursor and give `none`. -/
def attempt (p : Parse α) : Parse (Option α) :=
  tryCatch (some <$> p) fun f => if f.committed then throw f else pure none

/-- Fail committed at `offset` with a cause. -/
def failCause (offset : Nat) (cause : String) : Parse α :=
  throw { offset, cause := some cause, committed := true }

end Parse

open Parse

/-! ## Character classes -/

/-- Space or tab. -/
def isBlank (x : UInt8) : Bool := x = 32 || x = 9

/-- A character of a bare key: ASCII letter, digit, `-` or `_`. -/
def isBare (x : UInt8) : Bool :=
  (65 ≤ x && x ≤ 90) || (97 ≤ x && x ≤ 122) || (48 ≤ x && x ≤ 57) || x = 45 || x = 95

/-- A character allowed in a comment. -/
def isCommentChar (x : UInt8) : Bool := x = 9 || (32 ≤ x && x ≤ 126) || 128 ≤ x

/-- A character standing for itself in a basic string. -/
def isBasicChar (x : UInt8) : Bool :=
  x = 32 || x = 9 || x = 33 || (35 ≤ x && x ≤ 91) || (93 ≤ x && x ≤ 126) || 128 ≤ x

/-- A character of a literal string. -/
def isLiteralChar (x : UInt8) : Bool := x = 9 || (32 ≤ x && x ≤ 38) || (40 ≤ x && x ≤ 126) || 128 ≤ x

/-- An ASCII digit. -/
def isDigit (x : UInt8) : Bool := 48 ≤ x && x ≤ 57

/-- The value of a hexadecimal digit. -/
def hexValue (x : UInt8) : Option Nat :=
  if 48 ≤ x && x ≤ 57 then some (x.toNat - 48)
  else if 97 ≤ x && x ≤ 102 then some (x.toNat - 87)
  else if 65 ≤ x && x ≤ 70 then some (x.toNat - 55)
  else none

/-- A character as a one-character string. -/
def charText (x : UInt8) : String := (Char.ofNat x.toNat).toString

/-- An expected character, as messages show it. -/
def lit (s : String) : Context := .expected ("`" ++ s ++ "`")

/-! ## Blanks, comments and line ends -/

/-- Spaces and tabs. -/
def blanksP : Parse Unit := discard (run isBlank)

/-- A comment from its `#` to the end of the line (not included). -/
def comment : Parse Unit := do bump; discard (run isCommentChar)

/-- A line feed or carriage return and line feed, if one is next. -/
def newline? : Parse Bool := do
  match ← peek? with
  | some 10 => do bump; pure true
  | some 13 =>
    if (← peekAt? 1) == some 10 then do skip 2; pure true
    else pure false
  | _ => pure false

/-- A line end or the end of the text. -/
def lineEnding : Parse Unit := do
  if ← newline? then pure ()
  else if (← peek?).isNone then pure ()
  else failHere

/-- What may follow a value or a header on its line: blanks, a comment, the line end. -/
def lineTrailing : Parse Unit :=
  within [.expected "newline", lit "#"] do
    blanksP
    if (← peek?) == some 35 then comment
    lineEnding

/-- A line feed, or a carriage return and a line feed; a carriage return alone fails just
    past it. -/
def lineBreak : Parse Unit := do
  match ← peek? with
  | some 10 => bump
  | some 13 => do
    bump
    if (← peek?) == some 10 then bump else failHere
  | _ => failHere

/-- Blanks, comments and line ends between the items of an array; a comment that does not end
    its line, or a carriage return alone, is a fault. -/
def gap : Nat → Parse Unit
  | 0 => pure ()
  | fuel + 1 => do
    if (← run isBlank) > 0 then gap fuel
    else match ← peek? with
      | some 35 => do
        comment
        lineBreak
        gap fuel
      | some 10 | some 13 => do
        lineBreak
        gap fuel
      | _ => pure ()

/-! ## Strings -/

/-- The cause of a number that does not fit its field. -/
def outOfRange : Option String := some "value is out of range"

/-- The `n` hexadecimal digits of a `\u` or `\U` escape, as a character. -/
def hexEscape (n : Nat) (what : String) : Parse String :=
  within [.label what] <| commit do
    let b ← read
    let start ← get
    let digits := min n (Bytes.runEnd (fun x => (hexValue x).isSome) b start - start)
    if digits ≠ n then failHere
    let v := ((b.extract start (start + n)).data.toList.filterMap hexValue).foldl
      (fun acc d => acc * 16 + d) 0
    if (0xD800 ≤ v && v ≤ 0xDFFF) || 0x10FFFF < v then throw { offset := start, cause := outOfRange }
    skip n
    pure (Char.ofNat v).toString

/-- An escape sequence; the cursor is on its backslash.  The escape letter is read as one
    byte, so a fault after a letter outside ASCII lies inside that character. -/
def escape : Parse String := do
  bump
  match ← peek? with
  | none => failHere
  | some c =>
    bump
    if c = 98 then pure "\x08"
    else if c = 102 then pure "\x0c"
    else if c = 110 then pure "\n"
    else if c = 114 then pure "\r"
    else if c = 116 then pure "\t"
    else if c = 92 then pure "\\"
    else if c = 34 then pure "\""
    else if c = 117 then hexEscape 4 "unicode 4-digit hex code"
    else if c = 85 then hexEscape 8 "unicode 8-digit hex code"
    else failCut [.label "escape sequence", lit "b", lit "f", lit "n", lit "r", lit "t", lit "u",
      lit "U", lit "\\", lit "\""]

/-- The characters of a basic string after its opening quote, through the closing quote. -/
def basicBody : Nat → String → Parse String
  | 0, _ => failCut [.label "basic string"]
  | fuel + 1, acc => do
    match ← peek? with
    | some 34 => do bump; pure acc
    | some 92 =>
      match ← attempt escape with
      | some s => basicBody fuel (acc ++ s)
      | none => failCut [.label "basic string"]
    | some x =>
      if isBasicChar x then do
        let i ← get
        let _ ← run isBasicChar
        basicBody fuel (acc ++ (← slice i (← get)))
      else failCut [.label "basic string"]
    | none => failCut [.label "basic string"]

/-- A basic string `"…"`; the cursor is on the quote. -/
def basicString : Parse String := do
  bump
  basicBody (← budget) ""

/-- A literal string `'…'`; the cursor is on the quote. -/
def literalString : Parse String := do
  bump
  let i ← get
  let _ ← run isLiteralChar
  let s ← slice i (← get)
  if (← peek?) == some 39 then do bump; pure s
  else failCut [.label "literal string"]

/-- Skip blanks and line ends after a line-ending backslash. -/
def foldedBreak : Nat → Parse Unit
  | 0 => pure ()
  | fuel + 1 => do
    if (← run isBlank) > 0 then foldedBreak fuel
    else if ← newline? then foldedBreak fuel
    else pure ()

/-- The body of a string on several lines, after the opening delimiter of three `quote`s and
    through the closing one; `basic` strings have escapes. -/
def multiBody (quote : UInt8) (basic : Bool) (what : String) : Nat → String → Parse String
  | 0, _ => failCut [.label what]
  | fuel + 1, acc => do
    match ← peek? with
    | some x =>
      if x = quote then do
        let start ← get
        let quotes ← run (· = quote)
        let quoted (n : Nat) := String.ofList (List.replicate n (Char.ofNat quote.toNat))
        if quotes < 3 then
          -- quotes inside a literal body must be followed by more of it, else the fault is
          -- placed on the quotes; a basic body keeps them and fails after them
          let b ← read
          let i ← get
          let content := match b[i]? with
            | some 10 => true
            | some 13 => basic || b[i + 1]? == some 10
            | some y => basic || isLiteralChar y
            | none => false
          if !content then do set start; failCut [.label what]
          else multiBody quote basic what fuel (acc ++ quoted quotes)
        else do
          -- the closing delimiter takes at most two quotes of the text before it
          set (start + min quotes 5)
          pure (acc ++ quoted (min quotes 5 - 3))
      else if basic && x = 92 then do
        let start ← get
        bump
        let _ ← run isBlank
        if ← newline? then do
          foldedBreak (← budget)
          multiBody quote basic what fuel acc
        else do
          set start
          match ← attempt escape with
          | some s => multiBody quote basic what fuel (acc ++ s)
          | none => failCut [.label what]
      else if ← newline? then multiBody quote basic what fuel (acc ++ "\n")
      else if (if basic then isBasicChar x else isLiteralChar x) then do
        let i ← get
        let _ ← run fun y => y ≠ quote && (if basic then isBasicChar y && y ≠ 92 else isLiteralChar y)
        multiBody quote basic what fuel (acc ++ (← slice i (← get)))
      else failCut [.label what]
    | none => failCut [.label what]

/-- A string of any of the four forms; the cursor is on its first quote. -/
def string : Parse String := do
  if ← startsWith "\"\"\"" then do
    skip 3
    let _ ← newline?
    multiBody 34 true "multiline basic string" (← budget) ""
  else if ← startsWith "'''" then do
    skip 3
    let _ ← newline?
    multiBody 39 false "multiline literal string" (← budget) ""
  else if (← peek?) == some 34 then basicString
  else literalString

/-! ## Keys -/

/-- One key between dots, with the blanks around it. -/
def simpleKey : Parse Key := do
  blanksP
  let start ← get
  let name ← match ← peek? with
    | some 34 => basicString
    | some 39 => literalString
    | _ => do
      let n ← run isBare
      if n = 0 then failHere
      slice start (start + n)
  let stop ← get
  blanksP
  pure ⟨name, ⟨start, stop⟩⟩

/-- The keys after the first of a dotted key. -/
def dottedRest : Nat → Array Key → Parse (List Key)
  | 0, acc => pure acc.toList
  | fuel + 1, acc => do
    if (← peek?) == some 46 then
      match ← attempt (do bump; simpleKey) with
      | some k => dottedRest fuel (acc.push k)
      | none => pure acc.toList
    else pure acc.toList

/-- The most parts a dotted key may have, one fewer than `nestingLimit`. -/
def keyPartLimit : Nat := 79

/-- A key of one or more parts joined by dots.  A key of more than `keyPartLimit` parts is
    refused once read, placed where the key starts; another construct may still be tried. -/
def key : Parse (List Key) := do
  let start ← get
  let ks ← within [.label "key"] do
    let first ← simpleKey
    dottedRest (← budget) #[first]
  if keyPartLimit < ks.length then
    throw { offset := start, cause := some "recursion limit exceeded" }
  pure ks

/-! ## Numbers, dates and times -/

/-- Digits with single underscores between them; the cursor is on the first digit. -/
def digitRun (isD : UInt8 → Bool) : Nat → Parse Unit
  | 0 => pure ()
  | fuel + 1 => do
    match ← peek? with
    | some x =>
      if isD x then do bump; digitRun isD fuel
      else if x = 95 then do
        bump
        match ← peek? with
        | some y => if isD y then digitRun isD fuel else failCut [.expected "digit"]
        | none => failCut [.expected "digit"]
      else pure ()
    | none => pure ()

/-- A decimal integer with an optional sign; its text. -/
def decimalInteger : Parse String :=
  within [.label "integer"] do
    let start ← get
    if let some x ← peek? then
      if x = 43 || x = 45 then bump
    match ← peek? with
    | some x =>
      if x = 48 then bump
      else if isDigit x then digitRun isDigit (← budget)
      else failHere
    | none => failHere
    slice start (← get)

/-- Digits that may start with zero, with single underscores between them. -/
def zeroPrefixable : Parse Unit := do
  match ← peek? with
  | some x => if isDigit x then digitRun isDigit (← budget) else failHere
  | none => failHere

/-- The digits of a written decimal: sign, integer digits, fraction digits, exponent. -/
def decimalParts (t : String) : Bool × List Nat × List Nat × Int :=
  let cs := t.toList.filter (· ≠ '_')
  let (negative, cs) := match cs with
    | '-' :: r => (true, r)
    | '+' :: r => (false, r)
    | r => (false, r)
  let whole := cs.takeWhile Char.isDigit
  let rest := cs.dropWhile Char.isDigit
  let (frac, rest) := match rest with
    | '.' :: r => (r.takeWhile Char.isDigit, r.dropWhile Char.isDigit)
    | r => ([], r)
  let exp : Int := match rest with
    | c :: r =>
      if c = 'e' || c = 'E' then
        let (neg, ds) := match r with
          | '-' :: d => (true, d)
          | '+' :: d => (false, d)
          | d => (false, d)
        let v : Int := (ds.foldl (fun a c => a * 10 + (c.toNat - 48)) 0 : Nat)
        if neg then -v else v
      else 0
    | [] => 0
  let digits (xs : List Char) := xs.map (fun c => c.toNat - 48)
  (negative, digits whole, digits frac, exp)

/-- A float is kept as its shortest digits, an exact tie going to the greater magnitude. -/
def floatTie : Double.Tie := .up

/-- A float with a fraction or an exponent, or `inf` / `nan` with an optional sign; `none`
    when the text is an integer instead. -/
def float? : Parse (Option FloatValue) :=
  within [.label "floating-point number"] do
    let start ← get
    let special ← attempt do
      let negative ← match ← peek? with
        | some 45 => do bump; pure true
        | some 43 => do bump; pure false
        | _ => pure false
      if ← startsWith "inf" then do skip 3; pure (FloatValue.infinite negative)
      else if ← startsWith "nan" then do skip 3; pure FloatValue.nan
      else failHere
    match special with
    | some v => pure (some v)
    | none =>
      let whole ← attempt decimalInteger
      match whole with
      | none => pure none
      | some _ =>
        let frac ← match ← peek? with
          | some 46 => do
            bump
            within [.expected "digit"] (commit zeroPrefixable)
            pure true
          | _ => pure false
        let expo ← match ← peek? with
          | some 101 | some 69 => do
            bump
            if let some s ← peek? then
              if s = 43 || s = 45 then bump
            commit zeroPrefixable
            pure true
          | _ => pure false
        if !frac && !expo then do set start; pure none
        else
          let (negative, ws, fs, e) := decimalParts (← slice start (← get))
          -- only a positive value too large for a double is refused
          match (DecimalFloat.ofParts negative ws fs e).rounded floatTie with
          | none =>
            if negative then pure (some (.infinite true))
            else throw { offset := start, committed := true }
          | some d => pure (some (.finite d))

/-- An integer in base `radix` after its prefix, of the kind named `what`. -/
def radixInteger (radix : Nat) (isD : UInt8 → Bool) (what : String) : Parse Int := do
  let start ← get
  skip 2
  let digitsStart ← get
  within [.label what] <| commit do
    match ← peek? with
    | some x => if isD x then digitRun isD (← budget) else failHere
    | none => failHere
  let ds := (← slice digitsStart (← get)).toList.filter (· ≠ '_')
  let v := ds.foldl (fun a c => a * radix + ((hexValue c.toNat.toUInt8).getD 0)) 0
  if v < Nat.pow 2 63 then pure v else failCause start "number too large to fit in target type"

/-- An integer of any base. -/
def integer : Parse Int := do
  if ← startsWith "0x" then radixInteger 16 (fun x => (hexValue x).isSome) "hexadecimal integer"
  else if ← startsWith "0o" then radixInteger 8 (fun x => 48 ≤ x && x ≤ 55) "octal integer"
  else if ← startsWith "0b" then radixInteger 2 (fun x => x = 48 || x = 49) "binary integer"
  else
    let start ← get
    let t ← decimalInteger
    let (negative, ws, _, _) := decimalParts t
    let v := DecimalFloat.digitsValue ws
    if negative then
      if v ≤ Nat.pow 2 63 then pure (-(v : Int))
      else failCause start "number too small to fit in target type"
    else if v < Nat.pow 2 63 then pure v
    else failCause start "number too large to fit in target type"

/-- Whether `n` digits follow the cursor at distance `k`. -/
def digitsAhead (k n : Nat) : Parse Bool := do
  let b ← read
  let i ← get
  pure ((List.range n).all fun j => (b[i + k + j]?).any isDigit)

/-- `n` digits at the cursor, read as a number from `lo` to `hi`: fewer digits fail at the
    cursor, a number out of range fails with its cause. -/
def digitField (n lo hi : Nat) : Parse Nat := do
  let start ← get
  if !(← digitsAhead 0 n) then failHere
  let v := DecimalFloat.digitsValue ((← slice start (start + n)).toList.map (·.toNat - 48))
  if lo ≤ v && v ≤ hi then do skip n; pure v
  else throw { offset := start, cause := outOfRange }

/-- The byte `x` at the cursor. -/
def expectByte (x : UInt8) : Parse Unit := do
  if (← peek?) == some x then bump else failHere

/-- A time of day `hh:mm:ss`, with an optional fraction of a second. -/
def timeOfDay : Parse Unit := do
  discard (digitField 2 0 23)
  expectByte 58
  commit do
    discard (digitField 2 0 59)
    expectByte 58
    discard (digitField 2 0 60)
    discard <| attempt do
      expectByte 46
      if (← run isDigit) = 0 then failHere

/-- A time offset: `Z` or `±hh:mm`. -/
def timeOffset : Parse Unit :=
  within [.label "time offset"] do
    match ← peek? with
    | some 90 | some 122 => bump
    | some 43 | some 45 => do
      bump
      commit do
        discard (digitField 2 0 23)
        expectByte 58
        discard (digitField 2 0 59)
    | _ => failHere

/-- The number of days of month `m` (1–12) of year `y` in the Gregorian calendar. -/
def daysInMonth (y m : Nat) : Nat :=
  if m = 2 then (if y % 4 = 0 && (y % 100 ≠ 0 || y % 400 = 0) then 29 else 28)
  else if m = 4 || m = 6 || m = 9 || m = 11 then 30
  else 31

/-- A date `yyyy-mm-dd`; a day past the end of its month is out of range, placed on the day. -/
def fullDate : Parse Unit := do
  let y ← digitField 4 0 9999
  expectByte 45
  commit do
    let m ← digitField 2 1 12
    expectByte 45
    let dayStart ← get
    let d ← digitField 2 1 31
    if daysInMonth y m < d then throw { offset := dayStart, cause := outOfRange }

/-- A date with an optional time of day and offset after it. -/
def datedTime : Parse Unit := do
  fullDate
  discard <| attempt do
    match ← peek? with
    | some 84 | some 116 | some 32 => bump
    | _ => failHere
    timeOfDay
    discard (attempt timeOffset)

/-- A date, a time of day, or a date with a time and an optional offset, as text.  Faults of
    a value that starts with a date are those of a `date-time`; a value that is only a time of
    day is a `time`. -/
def datetime : Parse String := do
  let start ← get
  match ← attempt (within [.label "date-time"] datedTime) with
  | some () => pure ()
  | none => within [.label "time"] timeOfDay
  slice start (← get)

/-! ## Values -/

/-- The fault of a value that starts with none of the value forms. -/
def notAValue : List Context := [.label "string", lit "\"", lit "'"]

/-- The deepest nesting of arrays and inline tables. -/
def nestingLimit : Nat := 80

/-- Enter an array or an inline table at nesting `depth`; the 80th level is refused, placed
    on its opening bracket. -/
def enter (depth : Nat) : Parse Nat := do
  if depth + 1 < nestingLimit then pure (depth + 1)
  else throw { offset := ← get, cause := some "recursion limit exceeded", committed := true }

mutual
/-- A value at nesting `depth`; the cursor is on its first byte. -/
def value : Nat → Nat → Parse Node
  | 0, _ => failHere
  | fuel + 1, depth => do
    let start ← get
    let here (s : Scalar) : Parse Node := do return .scalar s ⟨start, ← get⟩
    match ← peek? with
    | none => failHere
    | some x =>
      if x = 34 || x = 39 then here (.string (← string))
      else if x = 91 then array fuel depth
      else if x = 123 then inlineTable fuel depth
      else if x = 43 || x = 45 || isDigit x then
        match ← attempt datetime with
        | some t => here (.datetime t)
        | none =>
          match ← float? with
          | some f => here (.float f)
          | none => here (.integer (← integer))
      else if x = 95 then within [.expected "leading digit"] do here (.integer (← integer))
      else if x = 46 then
        within [.expected "leading digit"] do
          match ← float? with
          | some f => here (.float f)
          | none => failHere [.label "floating-point number"]
      else if x = 116 then
        if ← startsWith "true" then do skip 4; here (.boolean true) else failCut notAValue
      else if x = 102 then
        if ← startsWith "false" then do skip 5; here (.boolean false) else failCut notAValue
      else if x = 105 then
        if ← startsWith "inf" then do skip 3; here (.float (.infinite false)) else failHere notAValue
      else if x = 110 then
        if ← startsWith "nan" then do skip 3; here (.float .nan) else failHere notAValue
      else failHere notAValue

/-- An array; the cursor is on `[`. -/
def array : Nat → Nat → Parse Node
  | 0, _ => failHere
  | fuel + 1, depth => do
    let start ← get
    let d ← enter depth
    bump
    let items ← commit do
      let items ← arrayItems fuel d #[] true
      gap (← budget)
      pure items
    if (← peek?) == some 93 then do
      bump
      pure (.array items ⟨start, ← get⟩)
    else failCut [.label "array", lit "]"]

/-- The items of an array, each with the gaps around it, and an optional trailing comma. -/
def arrayItems : Nat → Nat → Array Node → Bool → Parse (List Node)
  | 0, _, acc, _ => pure acc.toList
  | fuel + 1, depth, acc, first => do
    let item : Parse Node := do
      gap (← budget)
      let v ← value fuel depth
      gap (← budget)
      pure v
    if first then
      match ← attempt item with
      | none => pure acc.toList
      | some v => arrayItems fuel depth (acc.push v) false
    else if (← peek?) == some 44 then do
      bump
      match ← attempt item with
      | none => pure acc.toList
      | some v => arrayItems fuel depth (acc.push v) false
    else pure acc.toList

/-- An inline table; the cursor is on `{`. -/
def inlineTable : Nat → Nat → Parse Node
  | 0, _ => failHere
  | fuel + 1, depth => do
    let start ← get
    let d ← enter depth
    bump
    let bodyStart ← get
    let pairs ← inlinePairs fuel d #[] true
    blanksP
    let place (acc : Entries) (p : List Key × Key × Node) : Except TableFault Entries := do
      let (path, k, v) := p
      let (es, ()) ← descendInline path (fun dotted es =>
        if dotted == path.isEmpty then throw (.duplicateKey k.name none)
        else match es.find? k.name with
          | none => pure (es ++ [(k, v)], ())
          | some _ => throw (.duplicateKey k.name none)) 0 path false acc
      pure es
    match pairs.foldlM place [] with
    | .error e => failCause bodyStart e.message
    | .ok es =>
      if (← peek?) == some 125 then do
        bump
        pure (.inline es (some ⟨start, ← get⟩) false)
      else failCut [.label "inline table", lit "\x7d"]

/-- The `key = value` pairs of an inline table, separated by commas. -/
def inlinePairs : Nat → Nat → Array (List Key × Key × Node) → Bool →
    Parse (List (List Key × Key × Node))
  | 0, _, acc, _ => pure acc.toList
  | fuel + 1, depth, acc, first => do
    let next : Parse (List Key × Key × Node) := do
      let ks ← key
      commit do
        if (← peek?) == some 61 then bump else failHere [lit ".", lit "="]
        blanksP
        let v ← value fuel depth
        blanksP
        pure (ks.dropLast, (ks.getLast?.getD default), v)
    if first then
      match ← attempt next with
      | none => pure acc.toList
      | some p => inlinePairs fuel depth (acc.push p) false
    else if (← peek?) == some 44 then
      match ← attempt (do bump; next) with
      | none => pure acc.toList
      | some p => inlinePairs fuel depth (acc.push p) false
    else pure acc.toList
end

/-! ## The document -/

/-- The document as it is being read: the root table, the table whose lines are being read,
    and that table's header path. -/
structure Builder where
  root : Entries := []
  rootSpan : Option Range := some ⟨0, 0⟩
  current : Entries := []
  currentSpan : Option Range := some ⟨0, 0⟩
  path : List Key := []
  isArray : Bool := false
deriving Inhabited

namespace Builder

/-- Put the table being read into the document. -/
def finalize (b : Builder) : Except TableFault Builder := do
  let t := Node.table b.current b.currentSpan false false
  match b.path.getLast? with
  | none => pure { b with root := b.current, rootSpan := b.currentSpan, current := [] }
  | some k =>
    let last := b.path.length - 1
    let (root, ()) ← descend b.path false (fun _ es =>
        match es.find? k.name with
        | none => pure (es ++ [(k, if b.isArray then Node.tablesOf [t] else t)], ())
        | some (.tables items _) =>
          if b.isArray then pure (es.replace k.name (Node.tablesOf (items ++ [t])), ())
          else throw (duplicateAt b.path last)
        | some (.table _ _ true _) =>
          if b.isArray then throw (duplicateAt b.path last) else pure (es.replace k.name t, ())
        | some _ => throw (duplicateAt b.path last)) 0 b.path.dropLast false b.root
    pure { b with root, current := [] }

/-- Start the table of header `path` at `span`; `isArray` for `[[…]]`. -/
def start (b : Builder) (path : List Key) (span : Range) (isArray : Bool) :
    Except TableFault Builder := do
  let b ← b.finalize
  let k := path.getLast?.getD default
  let last := path.length - 1
  let (root, taken) ← descend path false (fun _ es =>
      match es.find? k.name, isArray with
      | none, false => pure (es, [])
      | none, true => pure (es ++ [(k, .tables [] none)], [])
      | some (.tables _ _), true => pure (es, [])
      | some (.table ces _ true false), false => pure (es.erase k.name, ces)
      | _, _ => throw (duplicateAt path last)) 0 path.dropLast false b.root
  pure { b with root, current := taken, currentSpan := some span, path, isArray }

/-- Add `k = v` under the dotted prefix `dotted` to the table being read. -/
def add (b : Builder) (dotted : List Key) (k : Key) (v : Node) : Except TableFault Builder := do
  let currentSpan := match b.currentSpan, v.span? with
    | some s, some vs => some ⟨s.start, vs.stop⟩
    | s, _ => s
  let (current, ()) ← descend dotted true (fun isDotted es =>
      if isDotted == dotted.isEmpty then throw (.duplicateKey k.name none)
      else match es.find? k.name with
        | none => pure (es ++ [(k, v)], ())
        | some _ => throw (.duplicateKey k.name (some b.path))) 0 dotted false b.current
  pure { b with current, currentSpan }

/-- The finished document's root table. -/
def finish (b : Builder) : Except TableFault Node := do
  let b ← b.finalize
  pure (.table b.root b.rootSpan false false)

end Builder

/-- A `key = value` line of the document. -/
def keyval (b : Builder) : Parse Builder := do
  let start ← get
  let ks ← commit key
  let v ← commit do
    if (← peek?) == some 61 then bump else failHere [lit ".", lit "="]
    blanksP
    let v ← value (3 * (← budget)) 0
    lineTrailing
    pure v
  match b.add ks.dropLast (ks.getLast?.getD default) v with
  | .ok b => pure b
  | .error e => failCause start e.message

/-- A table header line; the cursor is on `[`. -/
def header (b : Builder) : Parse Builder := do
  let start ← get
  within [.label "table header"] <| commit do
    if (← budget) < 3 then failHere
    let isArray ← startsWith "[["
    skip (if isArray then 2 else 1)
    let ks ← key
    let close := if isArray then "]]" else "]"
    if ← startsWith close then skip close.utf8ByteSize else failHere [lit ".", lit close]
    let stop ← get
    lineTrailing
    match b.start ks ⟨start, stop⟩ isArray with
    | .ok b => pure b
    | .error e => failCause start e.message

/-- The lines of the document. -/
def lines : Nat → Builder → Parse Builder
  | 0, b => pure b
  | fuel + 1, b => do
    match ← peek? with
    | none => pure b
    | some x =>
      let b ← if x = 35 then do
          commit (do comment; lineEnding)
          pure b
        else if x = 91 then header b
        else if x = 10 then do bump; pure b
        else if x = 13 then do
          if ← newline? then pure b else failHere
        else keyval b
      blanksP
      lines fuel b

/-- The number of bytes of the character starting at byte `i` of `b` (by its leading byte),
    and `0` at the end of the text: a syntax fault covers the whole character it is on. -/
def charWidth (b : ByteArray) (i : Nat) : Nat :=
  match b[i]? with
  | none => 0
  | some x => if x < 0xC0 then 1 else if x < 0xE0 then 2 else if x < 0xF0 then 3 else 4

/-- The start of the character that byte `i` of `b` belongs to: `i` moved back over
    continuation bytes, at most three. -/
def charStart (b : ByteArray) (i : Nat) : Nat :=
  let cont (j : Nat) : Bool := (b[j]?).any fun x => 0x80 ≤ x && x < 0xC0
  if 0 < i && cont i then
    if 1 < i && cont (i - 1) then
      if 2 < i && cont (i - 2) then i - 3 else i - 2
    else i - 1
  else i

/-- Read a whole document into its root table. -/
def parse (text : String) : Except TomlError Node :=
  let bytes := text.toUTF8
  let reading : Parse Node := do
    if ← startsWith "\uFEFF" then skip 3
    blanksP
    let b ← lines (← budget) {}
    if (← peek?).isSome then failHere
    match b.finish with
    | .ok root => pure root
    | .error e => throw { offset := bytes.size + 1, cause := some e.message }
  match StateT.run' (ReaderT.run reading bytes) 0 with
  | .ok root => .ok root
  | .error f =>
    if f.offset > bytes.size then .error { message := f.message, withText := false }
    else
      let i := charStart bytes f.offset
      .error { message := f.message, span := some ⟨i, i + charWidth bytes i⟩ }

end Toml

end COutline
