import COutline.Json.Shape

/-!
# Reading a whole JSON text as a value

`Json.parseText` reads any JSON text into a `Json` value, checking all of it: strings and their
escapes, numbers (an integer that fits 64 bits stays exact, any other number becomes the text of
its double) and nesting, where the 128th level is refused.  An object keeps one member per key,
the last one written, ordered by key.  The faults are those of `Shape.decodeText`, placed the
same way.
-/

namespace COutline

namespace JsonText

/-- The value of a number as read. -/
def Number.toJson : Number → Json
  | .unsigned n => .num n
  | .negative n => .num n
  | .float t => .float t

mutual
/-- Any value; `depth` is the nesting levels left. -/
def anyValue : Nat → Nat → Read Json
  | 0, _ => fail .eofValue
  | fuel + 1, depth => do
    match ← blanks with
    | none => failPeek .eofValue
    | some 110 => do bump; word [117, 108, 108]; pure .null
    | some 116 => do bump; word [114, 117, 101]; pure (.bool true)
    | some 102 => do bump; word [97, 108, 115, 101]; pure (.bool false)
    | some 45 => do bump; return (← number false).toJson
    | some 34 => return .str (← string)
    | some 91 => do
      let d ← enter depth
      bump
      let xs ← anyItems fuel d #[] true
      settle (.ok (.arr xs.toList)) (← closeList)
    | some 123 => do
      let d ← enter depth
      bump
      let m ← anyEntries fuel d .empty true
      settle (.ok (.obj m.entries)) (← closeObject)
    | some x => if isDigit x then return (← number true).toJson else failPeek .expectedValue

/-- The items of a list, up to its closing bracket. -/
def anyItems : Nat → Nat → Array Json → Bool → Read (Array Json)
  | 0, _, _, _ => fail .eofList
  | fuel + 1, depth, acc, first => do
    if ← nextItem first then
      let v ← anyValue fuel depth
      anyItems fuel depth (acc.push v) false
    else pure acc

/-- The members of an object, up to its closing brace; a later member replaces an earlier
    one of the same key. -/
def anyEntries : Nat → Nat → SortedMap String Json → Bool → Read (SortedMap String Json)
  | 0, _, _, _ => fail .eofObject
  | fuel + 1, depth, acc, first => do
    match ← nextKey first with
    | none => pure acc
    | some k => do
      colon
      let v ← anyValue fuel depth
      anyEntries fuel depth (acc.insert k v) false
end

end JsonText

/-- Read `text` as one JSON value followed by nothing but blanks. -/
def Json.parseText (text : String) : Except JsonText.ReadError Json :=
  let b := text.toUTF8
  let run : JsonText.Read Json := do
    let v ← JsonText.anyValue (4 * b.size + 16) JsonText.nestingLimit
    match ← JsonText.blanks with
    | some _ => JsonText.failPeek .trailingCharacters
    | none => pure v
  (run.run b).run' 0

end COutline
