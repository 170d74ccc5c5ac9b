import COutline.Text.Escaped

/-!
# Quoted listings of strings

Diagnostics that show a string value write it in double quotes with the characters that would
not read back escaped: the quote and the backslash by a backslash, `\t \r \n \0` by name, and
every character that `Text.isEscapedCode` names (controls, invisible and combining
characters) as `\u{hex}` with lowercase digits and no leading zeros.
-/

namespace COutline

namespace Text

/-- The lowercase hexadecimal digits of `n`, without leading zeros. -/
def hexDigits (n : Nat) : String :=
  String.ofList (Nat.toDigits 16 n)

/-- Whether `c` is written as itself inside a quoted listing. -/
def isShown (c : Char) : Bool := !isEscapedCode c.toNat

/-- One character inside a quoted listing. -/
def listChar (c : Char) : String :=
  if c = '"' then "\\\""
  else if c = '\\' then "\\\\"
  else if c = '\t' then "\\t"
  else if c = '\r' then "\\r"
  else if c = '\n' then "\\n"
  else if c.toNat = 0 then "\\0"
  else if isShown c then c.toString
  else "\\u\x7b" ++ hexDigits c.toNat ++ "\x7d"

/-- `s` in double quotes with `listChar` escapes. -/
def listed (s : String) : String :=
  s.toList.foldl (fun acc c => acc ++ listChar c) "\"" ++ "\""

end Text

end COutline
