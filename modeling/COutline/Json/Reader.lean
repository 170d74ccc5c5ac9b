import COutline.Decode.Error
import COutline.Text.Double
import COutline.Data.Bytes

/-!
# Reading JSON text

A reader walks the UTF-8 bytes of a JSON text with a cursor and fails with a `Fault` placed at
a line and a column: lines count the line feeds read so far, plus one; the column counts the
bytes read since the last line feed.  Most faults are placed at the cursor; a fault noticed
by looking at the next byte (`failPeek`) counts that byte as read.

This module holds the lexical layer: blanks, the words `null`, `true` and `false`, strings with
their escapes, numbers, and skipping a whole value.  Decoding against a record shape is in
`COutline.Json.Shape`.

An integer is exact when it fits 64 bits (`-2^63` at the least); any other number is read as a
significand below `2^64` and a power of ten, and made a double in rounded steps
(`Double.scaled`).  Skipping a value checks only the form of its numbers and strings.

Every loop of the reader consumes at least one byte per round; the loops take the count of
unread bytes (plus one) as their fuel, so running out of fuel is unreachable and is reported
as the end of the input.
-/

namespace COutline

namespace JsonText

/-- Why a JSON text could not be read. -/
inductive Fault where
  | eofValue
  | eofObject
  | eofList
  | eofString
  | expectedColon
  | expectedListCommaOrEnd
  | expectedObjectCommaOrEnd
  | expectedIdent
  | expectedValue
  | invalidEscape
  | invalidNumber
  | numberOutOfRange
  | controlCharacter
  | keyMustBeString
  | loneSurrogate
  | unexpectedEndOfEscape
  | trailingComma
  | trailingCharacters
  | recursionLimit
  /-- The text is well formed but does not fit the expected shape. -/
  | decode (e : DecodeError)
deriving Repr, DecidableEq, Inhabited

/-- The wording of a fault. -/
def Fault.text : Fault → String
  | .eofValue => "EOF while parsing a value"
  | .eofObject => "EOF while parsing an object"
  | .eofList => "EOF while parsing a list"
  | .eofString => "EOF while parsing a string"
  | .expectedColon => "expected `:`"
  | .expectedListCommaOrEnd => "expected `,` or `]`"
  | .expectedObjectCommaOrEnd => "expected `,` or `\x7d`"
  | .expectedIdent => "expected ident"
  | .expectedValue => "expected value"
  | .invalidEscape => "invalid escape"
  | .invalidNumber => "invalid number"
  | .numberOutOfRange => "number out of range"
  | .controlCharacter => "control character (\\u0000-\\u001F) found while parsing a string"
  | .keyMustBeString => "key must be a string"
  | .loneSurrogate => "lone leading surrogate in hex escape"
  | .unexpectedEndOfEscape => "unexpected end of hex escape"
  | .trailingComma => "trailing comma"
  | .trailingCharacters => "trailing characters"
  | .recursionLimit => "recursion limit exceeded"
  | .decode e => e.message "null"

/-- A fault and where it was noticed. -/
structure ReadError where
  fault : Fault
  line : Nat
  column : Nat
deriving Repr, DecidableEq, Inhabited

/-- `FAULT at line L column C`. -/
def ReadError.message (e : ReadError) : String :=
  e.fault.text ++ " at line " ++ toString e.line ++ " column " ++ toString e.column

/-- Line and column after the first `i` bytes of `b`. -/
def location (b : ByteArray) (i : Nat) : Nat × Nat :=
  (b.extract 0 i).data.foldl
    (fun (lc : Nat × Nat) x => if x = 10 then (lc.1 + 1, 0) else (lc.1, lc.2 + 1)) (1, 0)

/-- A reading step: the text is fixed, the cursor moves. -/
abbrev Read (α : Type) := ReaderT ByteArray (StateT Nat (Except ReadError)) α

/-- The fault `f` placed after the first `i` bytes. -/
def placeAt (f : Fault) (i : Nat) : Read ReadError := do
  let (line, column) := location (← read) i
  pure ⟨f, line, column⟩

/-- The fault `f` placed at the cursor. -/
def place (f : Fault) : Read ReadError := do placeAt f (← get)

/-- The fault `f` placed after the byte under the cursor. -/
def placePeek (f : Fault) : Read ReadError := do placeAt f (min (← read).size ((← get) + 1))

/-- Fail with `f` at the cursor. -/
def fail (f : Fault) : Read α := do throw (← place f)

/-- Fail with `f`, counting the byte under the cursor as read. -/
def failPeek (f : Fault) : Read α := do throw (← placePeek f)

/-- The byte under the cursor. -/
def peek? : Read (Option UInt8) := do return (← read)[← get]?

/-- Move past one byte. -/
def bump : Read Unit := modify (· + 1)

/-- The byte under the cursor, moving past it. -/
def next? : Read (Option UInt8) := do
  let c ← peek?
  if c.isSome then bump
  return c

/-- The unread byte count plus one: fuel for a loop that reads a byte per round. -/
def budget : Read Nat := do return (← read).size - (← get) + 1

/-- Whether `x` is a blank between tokens: space, line feed, tab or carriage return. -/
def isBlank (x : UInt8) : Bool := x = 32 || x = 10 || x = 9 || x = 13

/-- Whether `x` is an ASCII digit. -/
def isDigit (x : UInt8) : Bool := 48 ≤ x && x ≤ 57

/-- Skip blanks and look at the next byte. -/
def blanks : Read (Option UInt8) := do
  set (Bytes.runEnd isBlank (← read) (← get))
  peek?

/-- Read the bytes `xs` exactly; a different byte is `expected ident`. -/
def word : List UInt8 → Read Unit
  | [] => pure ()
  | x :: xs => do
    match ← next? with
    | none => fail .eofValue
    | some y => if y = x then word xs else fail .expectedIdent

/-! ## Strings -/

/-- The value of a hexadecimal digit. -/
def hexValue (x : UInt8) : Option Nat :=
  if 48 ≤ x && x ≤ 57 then some (x.toNat - 48)
  else if 97 ≤ x && x ≤ 102 then some (x.toNat - 87)
  else if 65 ≤ x && x ≤ 70 then some (x.toNat - 55)
  else none

/-- The four hexadecimal digits of a `\u` escape. -/
def hex4 : Read Nat := do
  let b ← read
  let i ← get
  if i + 4 ≤ b.size then
    set (i + 4)
    match [b[i]?, b[i + 1]?, b[i + 2]?, b[i + 3]?].map (·.bind hexValue) with
    | [some a, some c, some d, some e] => pure (((a * 16 + c) * 16 + d) * 16 + e)
    | _ => fail .invalidEscape
  else
    set b.size
    fail .eofString

/-- `acc` with the UTF-8 bytes of code point `n` appended. -/
def pushCode (acc : ByteArray) (n : Nat) : ByteArray := acc ++ (Char.ofNat n).toString.toUTF8

/-- After `\u`: one code point, or a surrogate pair written as two escapes. -/
def unicodeEscape (acc : ByteArray) : Read ByteArray := do
  let n ← hex4
  if 0xDC00 ≤ n && n ≤ 0xDFFF then fail .loneSurrogate
  else if n < 0xD800 || 0xDBFF < n then pure (pushCode acc n)
  else
    match ← next? with
    | none => fail .eofString
    | some x =>
      if x ≠ 92 then fail .unexpectedEndOfEscape
      else
        match ← next? with
        | none => fail .eofString
        | some y =>
          if y ≠ 117 then fail .unexpectedEndOfEscape
          else
            let m ← hex4
            if m < 0xDC00 || 0xDFFF < m then fail .loneSurrogate
            else pure (pushCode acc ((n - 0xD800) * 1024 + (m - 0xDC00) + 0x10000))

/-- After a backslash: the escaped character. -/
def escape (acc : ByteArray) : Read ByteArray := do
  match ← next? with
  | none => fail .eofString
  | some x =>
    if x = 34 || x = 92 || x = 47 then pure (acc.push x)
    else if x = 98 then pure (acc.push 8)
    else if x = 102 then pure (acc.push 12)
    else if x = 110 then pure (acc.push 10)
    else if x = 114 then pure (acc.push 13)
    else if x = 116 then pure (acc.push 9)
    else if x = 117 then unicodeEscape acc
    else fail .invalidEscape

/-- The rest of a string after its opening quote, through the closing quote. -/
def stringBody : Nat → ByteArray → Read String
  | 0, _ => fail .eofString
  | fuel + 1, acc => do
    match ← next? with
    | none => fail .eofString
    | some x =>
      if x = 34 then pure ((String.fromUTF8? acc).getD "")
      else if x = 92 then stringBody fuel (← escape acc)
      else if x < 32 then fail .controlCharacter
      else stringBody fuel (acc.push x)

/-- A string; the cursor is on its opening quote. -/
def string : Read String := do
  bump
  stringBody (← budget) ByteArray.empty

/-! ## Numbers -/

/-- A number as read: an unsigned integer below `2^64`, a negative integer from `-2^63`, or
    else a floating-point number by the text of its value. -/
inductive Number where
  | unsigned (n : Nat)
  | negative (n : Int)
  | float (text : String)
deriving Repr, DecidableEq, Inhabited

/-- How a decoder describes the number. -/
def Number.found : Number → Found
  | .unsigned n => .integer n
  | .negative n => .integer n
  | .float t => .float t

/-- The digits of the bytes `b[i … j)`. -/
def digitsOf (b : ByteArray) (i j : Nat) : List Nat :=
  (b.extract i j).data.toList.map (fun x => x.toNat - 48)

/-- The largest significand, `2^64 - 1`. -/
def significandMax : Nat := Nat.pow 2 64 - 1

/-- The largest written exponent, `2^31 - 1`. -/
def exponentMax : Nat := Nat.pow 2 31 - 1

/-- Whether `n * 10 + d` exceeds `max`, tested without computing it. -/
def passes (max n d : Nat) : Bool := max / 10 ≤ n && (max / 10 < n || max % 10 < d)

/-- Append the digits `ds` to `n` while the value stays at most `max`: the value, and how many
    digits were appended. -/
def appendDigits (max : Nat) : Nat → List Nat → Nat × Nat
  | n, [] => (n, 0)
  | n, d :: ds =>
    if passes max n d then (n, 0)
    else
      let r := appendDigits max (n * 10 + d) ds
      (r.1, r.2 + 1)

/-- `x` held within `-2^31 … 2^31 - 1`. -/
def clampExponent (x : Int) : Int := max (-(Nat.pow 2 31 : Int)) (min (exponentMax : Int) x)

/-- A float in a message has the shortest digits, an exact tie going to the even one. -/
def floatTie : Double.Tie := .even

/-- The text of the double `f` with the given sign. -/
def floatText (negative : Bool) (f : Nat × Int) : String :=
  (DecimalFloat.ofDouble floatTie negative f).scientificText

/-- The float `± significand · 10^e`, or `number out of range` when it is infinite. -/
def fromParts (positive : Bool) (significand : Nat) (e : Int) : Read Number :=
  match Double.scaled significand e with
  | none => fail .numberOutOfRange
  | some f => pure (.float (floatText (!positive) f))

/-- The exponent part; the cursor is on the `e`.  A written exponent past `2^31 - 1` is out of
    range for a nonzero significand and a positive exponent (placed after its first digit too
    many), else zero. -/
def exponent (positive : Bool) (significand : Nat) (start : Int) : Read Number := do
  bump
  let positiveExp ← match ← peek? with
    | some 43 => do bump; pure true
    | some 45 => do bump; pure false
    | _ => pure true
  match ← next? with
  | none => fail .eofValue
  | some x =>
    if !isDigit x then fail .invalidNumber
    else
      let b ← read
      let i ← get
      let stop := Bytes.runEnd isDigit b i
      let (e, taken) := appendDigits exponentMax (x.toNat - 48) (digitsOf b i stop)
      if taken < stop - i then
        set (i + taken + 1)
        if significand ≠ 0 && positiveExp then fail .numberOutOfRange
        else
          set stop
          pure (.float (floatText (!positive) (0, 0)))
      else
        set stop
        fromParts positive significand
          (clampExponent (if positiveExp then start + e else start - e))

/-- The fraction part; the cursor is on the point.  Digits that would take the significand
    past `2^64 - 1` are read and dropped. -/
def fraction (positive : Bool) (significand : Nat) (start : Int) : Read Number := do
  bump
  let b ← read
  let i ← get
  let stop := Bytes.runEnd isDigit b i
  if stop = i then
    match b[i]? with
    | some _ => failPeek .invalidNumber
    | none => failPeek .eofValue
  else
    set stop
    let (s, taken) := appendDigits significandMax significand (digitsOf b i stop)
    let e := start - taken
    match ← peek? with
    | some 101 | some 69 => exponent positive s e
    | _ => fromParts positive s e

/-- An integer without fraction or exponent: unsigned below `2^64`, negative from `-2^63`,
    else a float (`-0` is the float `-0.0`). -/
def integer (positive : Bool) (n : Nat) : Number :=
  if positive then .unsigned n
  else if n = 0 then .float "-0.0"
  else if n ≤ Nat.pow 2 63 then .negative (-(n : Int))
  else .float (floatText true ((Double.nearest n 1).getD (0, 0)))

/-- A number without its minus sign; the cursor is on its first byte.  The integer digits
    build a significand below `2^64`; those past it count as powers of ten. -/
def number (positive : Bool) : Read Number := do
  let b ← read
  let i ← get
  match b[i]? with
  | none => fail .eofValue
  | some x =>
    if !isDigit x then do bump; fail .invalidNumber
    else
      let stop := if x = 48 then i + 1 else Bytes.runEnd isDigit b i
      set stop
      if x = 48 && (b[i + 1]?).any isDigit then failPeek .invalidNumber
      else
        let (n, taken) := appendDigits significandMax 0 (digitsOf b i stop)
        let dropped := stop - i - taken
        match ← peek? with
        | some 46 => fraction positive n dropped
        | some 101 | some 69 => exponent positive n dropped
        | _ => if dropped = 0 then pure (integer positive n) else fromParts positive n dropped

/-- Read past a number's exponent part, checking only its form; the cursor is on the `e`. -/
def skipExponent : Read Unit := do
  bump
  match ← peek? with
  | some 43 | some 45 => bump
  | _ => pure ()
  match ← next? with
  | some x =>
    if isDigit x then set (Bytes.runEnd isDigit (← read) (← get)) else fail .invalidNumber
  | none => fail .invalidNumber

/-- Read past a number without its minus sign, checking only its form: its value is never
    computed, so no number is out of range here. -/
def skipNumber : Read Unit := do
  let b ← read
  let i ← get
  match b[i]? with
  | some x =>
    if x = 48 then
      bump
      if (b[i + 1]?).any isDigit then failPeek .invalidNumber
    else if isDigit x then set (Bytes.runEnd isDigit b i)
    else do bump; fail .invalidNumber
  | none => fail .invalidNumber
  match ← peek? with
  | some 46 =>
    bump
    let j ← get
    let stop := Bytes.runEnd isDigit b j
    if stop = j then failPeek .invalidNumber
    set stop
    match ← peek? with
    | some 101 | some 69 => skipExponent
    | _ => pure ()
  | some 101 | some 69 => skipExponent
  | _ => pure ()

/-- Read past the rest of a string after its opening quote, checking only the form of its
    escapes: a `\u` escape needs four hexadecimal digits, but surrogates are not paired.  A
    control character is placed before itself. -/
def skipStringBody : Nat → Read Unit
  | 0 => fail .eofString
  | fuel + 1 => do
    let b ← read
    let i := Bytes.runEnd (fun x => x ≠ 34 && x ≠ 92 && 32 ≤ x) b (← get)
    set i
    match b[i]? with
    | none => fail .eofString
    | some 34 => bump
    | some 92 =>
      bump
      match ← next? with
      | none => fail .eofString
      | some x =>
        if x = 117 then discard hex4
        else if !(x = 34 || x = 92 || x = 47 || x = 98 || x = 102 || x = 110 || x = 114 ||
            x = 116) then fail .invalidEscape
        skipStringBody fuel
    | some _ => fail .controlCharacter

/-- Read past a string, checking only its form; the cursor is on its opening quote. -/
def skipString : Read Unit := do
  bump
  skipStringBody (← budget)

/-! ## Whole values -/

mutual
/-- Read past one value of any shape, checking only that it is well formed: numbers and
    strings are checked for their form alone, and there is no nesting limit. -/
def skip : Nat → Read Unit
  | 0 => fail .eofValue
  | fuel + 1 => do
    match ← blanks with
    | none => failPeek .eofValue
    | some x =>
      if x = 110 then do bump; word [117, 108, 108]
      else if x = 116 then do bump; word [114, 117, 101]
      else if x = 102 then do bump; word [97, 108, 115, 101]
      else if x = 45 then do bump; skipNumber
      else if isDigit x then skipNumber
      else if x = 34 then skipString
      else if x = 91 then do
        bump
        match ← blanks with
        | some 93 => bump
        | none => failPeek .eofList
        | _ => skipItems fuel
      else if x = 123 then do
        bump
        match ← blanks with
        | some 125 => bump
        | _ => skipMembers fuel
      else failPeek .expectedValue

/-- The items of a list from the first one on, through the closing bracket. -/
def skipItems : Nat → Read Unit
  | 0 => fail .eofList
  | fuel + 1 => do
    skip fuel
    match ← blanks with
    | some 44 => do bump; skipItems fuel
    | some 93 => bump
    | some _ => failPeek .expectedListCommaOrEnd
    | none => failPeek .eofList

/-- The members of an object from the first key on, through the closing brace. -/
def skipMembers : Nat → Read Unit
  | 0 => fail .eofObject
  | fuel + 1 => do
    match ← blanks with
    | some 34 => skipString
    | some _ => failPeek .keyMustBeString
    | none => failPeek .eofObject
    match ← blanks with
    | some 58 => bump
    | some _ => failPeek .expectedColon
    | none => failPeek .eofObject
    skip fuel
    match ← blanks with
    | some 44 => do bump; skipMembers fuel
    | some 125 => bump
    | some _ => failPeek .expectedObjectCommaOrEnd
    | none => failPeek .eofObject
end

/-- What a decoder met at the cursor, read past; `[` and `{` are not read past, and a byte that
    starts no value is `expected value`. -/
def found : Read Found := do
  match ← blanks with
  | none => failPeek .eofValue
  | some x =>
    if x = 110 then do bump; word [117, 108, 108]; pure .unit
    else if x = 116 then do bump; word [114, 117, 101]; pure (.boolean true)
    else if x = 102 then do bump; word [97, 108, 115, 101]; pure (.boolean false)
    else if x = 45 then do bump; return (← number false).found
    else if isDigit x then return (← number true).found
    else if x = 34 then return .string (← string)
    else if x = 91 then pure .sequence
    else if x = 123 then pure .map
    else failPeek .expectedValue

/-- Fail with "invalid type" for what stands at the cursor, where `expected` was wanted. -/
def invalidType (expected : String) : Read α := do
  let f ← found
  fail (.decode (.invalidType f expected))

end JsonText

end COutline
