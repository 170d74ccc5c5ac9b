/-!
# JSON values and their text

A `Json` value is a tree whose objects keep their fields in the order they were built: the
texts this library writes list a record's fields in declaration order.  Two renderings are
given, both with the same string escapes:

* `compact` — no blanks at all;
* `pretty` — two blanks of indent per level, `": "` after a key, and `[]` / `{}` for empty
  containers.

Strings escape the quote, the backslash and control characters (`\n \r \t \b \f` by name, the
rest as `\u00XX`); every other character is written as itself.
-/

namespace COutline

/-- A JSON value; objects keep field order. -/
inductive Json where
  | null
  | bool (b : Bool)
  /-- An integer. -/
  | num (n : Int)
  /-- Any other number, by the text of the double it reads as. -/
  | float (text : String)
  | str (s : String)
  | arr (items : List Json)
  | obj (fields : List (String × Json))
deriving Repr, Inhabited

namespace Json

/-- The four hexadecimal digits of a code unit below `0x10000`. -/
def hex4 (n : Nat) : String :=
  let digit (d : Nat) : Char := "0123456789abcdef".toList.getD d '0'
  String.ofList [digit (n / 4096 % 16), digit (n / 256 % 16), digit (n / 16 % 16), digit (n % 16)]

/-- One character as it stands inside a JSON string. -/
def escapeChar (c : Char) : String :=
  if c = '"' then "\\\""
  else if c = '\\' then "\\\\"
  else if c = '\n' then "\\n"
  else if c = '\r' then "\\r"
  else if c = '\t' then "\\t"
  else if c.toNat = 8 then "\\b"
  else if c.toNat = 12 then "\\f"
  else if c.toNat < 32 then "\\u" ++ hex4 c.toNat
  else c.toString

/-- A string literal: quotes around the escaped characters. -/
def quote (s : String) : String :=
  s.toList.foldl (fun acc c => acc ++ escapeChar c) "\"" ++ "\""

/-- An integer in decimal, with a leading minus when negative. -/
def number (n : Int) : String :=
  if n < 0 then "-" ++ toString n.natAbs else toString n.natAbs

mutual
/-- The text with no blanks. -/
def compact : Json → String
  | null => "null"
  | bool b => if b then "true" else "false"
  | num n => number n
  | float t => t
  | str s => quote s
  | arr items => "[" ++ compactItems items ++ "]"
  | obj fields => "\x7b" ++ compactFields fields ++ "\x7d"

/-- Array items with no blanks, comma separated. -/
def compactItems : List Json → String
  | [] => ""
  | [j] => compact j
  | j :: rest => compact j ++ "," ++ compactItems rest

/-- Object fields with no blanks, comma separated. -/
def compactFields : List (String × Json) → String
  | [] => ""
  | [(k, j)] => quote k ++ ":" ++ compact j
  | (k, j) :: rest => quote k ++ ":" ++ compact j ++ "," ++ compactFields rest
end

/-- `n` levels of two-blank indent. -/
def indent (n : Nat) : String := String.ofList (List.replicate (2 * n) ' ')

mutual
/-- The indented text at nesting level `level`. -/
def pretty (level : Nat) : Json → String
  | null => "null"
  | bool b => if b then "true" else "false"
  | num n => number n
  | float t => t
  | str s => quote s
  | arr [] => "[]"
  | arr items => "[\n" ++ prettyItems (level + 1) items ++ "\n" ++ indent level ++ "]"
  | obj [] => "\x7b\x7d"
  | obj fields => "\x7b\n" ++ prettyFields (level + 1) fields ++ "\n" ++ indent level ++ "\x7d"

/-- Array items, one per line at `level`. -/
def prettyItems (level : Nat) : List Json → String
  | [] => ""
  | [j] => indent level ++ pretty level j
  | j :: rest => indent level ++ pretty level j ++ ",\n" ++ prettyItems level rest

/-- Object fields, one per line at `level`. -/
def prettyFields (level : Nat) : List (String × Json) → String
  | [] => ""
  | [(k, j)] => indent level ++ quote k ++ ": " ++ pretty level j
  | (k, j) :: rest =>
    indent level ++ quote k ++ ": " ++ pretty level j ++ ",\n" ++ prettyFields level rest
end

/-- The indented text of a whole document. -/
def render (j : Json) : String := pretty 0 j

/-- A natural number. -/
def nat (n : Nat) : Json := num n

/-- `null` for `none`, else the value's JSON. -/
def opt {α : Type} (f : α → Json) : Option α → Json
  | some a => f a
  | none => null

mutual
/-- How deeply lists and objects nest in the value: `0` for a scalar, one more than the
    deepest item for a list or an object. -/
def depth : Json → Nat
  | arr xs => depthItems xs + 1
  | obj fs => depthFields fs + 1
  | _ => 0

/-- The deepest of the items. -/
def depthItems : List Json → Nat
  | [] => 0
  | j :: js => max (depth j) (depthItems js)

/-- The deepest of the field values. -/
def depthFields : List (String × Json) → Nat
  | [] => 0
  | (_, j) :: fs => max (depth j) (depthFields fs)
end

end Json

end COutline
