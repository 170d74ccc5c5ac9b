import COutline.Json.Reader
import COutline.Json.Basic
import COutline.Data.SortedMap

/-!
# Decoding JSON text against a shape

A `Shape` says what a JSON text must hold: strings, booleans, bounded unsigned integers,
enumeration names, optional values, lists, string-keyed maps and records.  `decodeText`
reads the text once, from left to right, and stops at the first fault; the value it returns
is normalized:

* a record is an object with its fields in declaration order, a missing optional field as
  `null`, a missing defaulted field left out, and unknown fields dropped (they are still
  checked to be well formed);
* a record may also be written as a list of its field values in order, ending early only
  where the fields left have defaults;
* a map keeps one entry per key, the last one written, ordered by key;
* an enumeration value is its name, written as a string or as `{"name": null}`.

A fault found in the text itself is placed where it was noticed.  A value of the wrong kind is
placed just past it (or on the opening bracket of a list or an object); a missing field, a
duplicate field and a short list of record fields are placed past the record's closing
bracket.  Each list, object or record written as one enters a nesting level; the 128th level
is refused.
-/

namespace COutline

/-- The form a JSON value must have. -/
inductive Shape where
  | string
  | boolean
  /-- An unsigned integer of the type called `name` (such as `u32`), at most `max`. -/
  | unsigned (name : String) (max : Nat)
  /-- One of the names of an enumeration without payloads. -/
  | variants (names : List String)
  /-- A value of shape `s`, or `null`; a record field of this shape may be left out of an
      object. -/
  | option (s : Shape)
  /-- A value of shape `s`; a record field of this shape takes its default when left out, of
      an object or at the end of a list. -/
  | defaulted (s : Shape)
  | seq (s : Shape)
  /-- An object from string keys to values of shape `s`. -/
  | map (s : Shape)
  /-- A record called `name` with the given fields. -/
  | record (name : String) (fields : List (String × Shape))
  /-- The innermost enclosing record again, for records that contain themselves. -/
  | recur
deriving Repr, Inhabited

/-- Whether a record field of this shape takes its default when left out. -/
def Shape.isDefaulted : Shape → Bool
  | .defaulted _ => true
  | _ => false

/-- The index of the first field from `start` on that has no default: where a record written
    as a list of `start` items falls short. -/
def Shape.firstRequired (fields : List (String × Shape)) (start : Nat) : Option Nat :=
  ((fields.zipIdx.drop start).find? fun ((_, s), _) => !s.isDefaulted).map (·.2)

namespace JsonText

/-- The deepest nesting of lists and objects a text may have. -/
def nestingLimit : Nat := 128

/-- Enter one nesting level, with `depth` levels left before. -/
def enter (depth : Nat) : Read Nat :=
  if depth ≤ 1 then failPeek .recursionLimit else pure (depth - 1)

/-- The colon between a key and its value. -/
def colon : Read Unit := do
  match ← blanks with
  | some 58 => bump
  | some _ => failPeek .expectedColon
  | none => failPeek .eofObject

/-- Before an item of a list: whether one follows (`false` at the closing bracket, which is
    left unread). -/
def nextItem (first : Bool) : Read Bool := do
  match ← blanks with
  | some 93 => pure false
  | some 44 =>
    if first then pure true
    else do
      bump
      match ← blanks with
      | some 93 => failPeek .trailingComma
      | some _ => pure true
      | none => failPeek .eofValue
  | some _ => if first then pure true else failPeek .expectedListCommaOrEnd
  | none => failPeek .eofList

/-- Before a member of an object: its key, or `none` at the closing brace (left unread). -/
def nextKey (first : Bool) : Read (Option String) := do
  let head ← match ← blanks with
    | some 125 => return none
    | some 44 =>
      if first then pure (some 44)
      else do bump; blanks
    | some x => if first then pure (some x) else failPeek .expectedObjectCommaOrEnd
    | none => failPeek .eofObject
  match head with
  | some 34 => return some (← string)
  | some 125 => failPeek .trailingComma
  | some _ => failPeek .keyMustBeString
  | none => failPeek .eofValue

/-- After the items of a list: read past its closing bracket, or the fault there (a comma is
    read past before the fault is placed). -/
def closeList : Read (Except ReadError Unit) := do
  match ← blanks with
  | some 93 => do bump; pure (.ok ())
  | some 44 => do
    bump
    match ← blanks with
    | some 93 => return .error (← placePeek .trailingComma)
    | _ => return .error (← placePeek .trailingCharacters)
  | some _ => return .error (← placePeek .trailingCharacters)
  | none => return .error (← placePeek .eofList)

/-- After the members of an object: read past its closing brace, or the fault there. -/
def closeObject : Read (Except ReadError Unit) := do
  match ← blanks with
  | some 125 => do bump; pure (.ok ())
  | some 44 => return .error (← placePeek .trailingComma)
  | some _ => return .error (← placePeek .trailingCharacters)
  | none => return .error (← placePeek .eofObject)

/-- Fail with the first fault: the decoding fault `r` (placed at the cursor), else the
    closing fault `c`. -/
def settle (r : Except DecodeError α) (c : Except ReadError Unit) : Read α :=
  match r, c with
  | .error e, _ => fail (.decode e)
  | .ok _, .error e => throw e
  | .ok a, .ok () => pure a

/-- A name of `names`, as a string at the cursor. -/
def variantName (names : List String) : Read String := do
  match DecodeError.variant names (← string) with
  | .ok w => pure w
  | .error e => fail (.decode e)

/-- `struct NAME with N elements`, what a record written as a list must have. -/
def recordLength (name : String) (n : Nat) : String :=
  "struct " ++ name ++ " with " ++ toString n ++ (if n = 1 then " element" else " elements")

/-- The fields' values in order, with a missing optional field as `null` and a missing
    defaulted field left out. -/
def complete (fields : List (String × Shape)) (got : List (Option Json)) :
    Except DecodeError (List (String × Json)) :=
  (fields.zip (got ++ List.replicate (fields.length - got.length) none)).filterMapM fun
    | ((k, _), some v) => pure (some (k, v))
    | ((k, .option _), none) => pure (some (k, .null))
    | ((_, .defaulted _), none) => pure none
    | ((k, _), none) => throw (.missingField k)

mutual
/-- A value of `shape`; `self` is the innermost enclosing record and `depth` the nesting
    levels left. -/
def value : Nat → Nat → Shape → Shape → Read Json
  | 0, _, _, _ => fail .eofValue
  | fuel + 1, depth, self, shape =>
    match shape with
    | .string => do
      match ← blanks with
      | none => failPeek .eofValue
      | some 34 => return .str (← string)
      | some _ => invalidType "a string"
    | .boolean => do
      match ← blanks with
      | none => failPeek .eofValue
      | some 116 => do bump; word [114, 117, 101]; pure (.bool true)
      | some 102 => do bump; word [97, 108, 115, 101]; pure (.bool false)
      | some _ => invalidType "a boolean"
    | .unsigned name max => do
      match ← blanks with
      | none => failPeek .eofValue
      | some x =>
        let n ← if x = 45 then do bump; number false
          else if isDigit x then number true
          else invalidType name
        match n with
        | .unsigned k =>
          if k ≤ max then pure (.num k) else fail (.decode (.invalidValue (.integer k) name))
        | .negative k => fail (.decode (.invalidValue (.integer k) name))
        | .float t => fail (.decode (.invalidType (.float t) name))
    | .variants names => do
      match ← blanks with
      | none => failPeek .eofValue
      | some 34 => return .str (← variantName names)
      | some 123 => do
        let _ ← enter depth
        bump
        let w ← match ← blanks with
          | some 34 => variantName names
          | none => failPeek .eofValue
          | some _ => invalidType "variant identifier"
        colon
        match ← blanks with
        | some 110 => do bump; word [117, 108, 108]
        | none => failPeek .eofValue
        | some _ => invalidType "unit"
        match ← blanks with
        | some 125 => do bump; pure (.str w)
        | some _ => fail .expectedValue
        | none => fail .eofObject
      | some _ => failPeek .expectedValue
    | .option s => do
      match ← blanks with
      | some 110 => do bump; word [117, 108, 108]; pure .null
      | _ => value fuel depth self s
    | .defaulted s => value fuel depth self s
    | .recur => value fuel depth self self
    | .seq s => do
      match ← blanks with
      | none => failPeek .eofValue
      | some 91 => do
        let d ← enter depth
        bump
        let xs ← items fuel d self s #[] true
        settle (.ok (.arr xs.toList)) (← closeList)
      | some _ => invalidType "a sequence"
    | .map s => do
      match ← blanks with
      | none => failPeek .eofValue
      | some 123 => do
        let d ← enter depth
        bump
        let m ← entries fuel d self s .empty true
        settle (.ok (.obj m.entries)) (← closeObject)
      | some _ => invalidType "a map"
    | .record name fields => do
      match ← blanks with
      | none => failPeek .eofValue
      | some 123 => do
        let d ← enter depth
        bump
        let got ← members fuel d shape fields (Array.replicate fields.length none) true
        let r := got.bind fun vs => (complete fields vs.toList).map Json.obj
        settle r (← closeObject)
      | some 91 => do
        let d ← enter depth
        bump
        let got ← fieldItems fuel d shape name fields fields #[]
        let r := got.map fun vs => Json.obj ((fields.map (·.1)).zip vs.toList)
        settle r (← closeList)
      | some _ => invalidType ("struct " ++ name)

/-- The items of a list of values of shape `s`, up to its closing bracket. -/
def items : Nat → Nat → Shape → Shape → Array Json → Bool → Read (Array Json)
  | 0, _, _, _, _, _ => fail .eofList
  | fuel + 1, depth, self, s, acc, first => do
    if ← nextItem first then
      let v ← value fuel depth self s
      items fuel depth self s (acc.push v) false
    else pure acc

/-- The members of a map with values of shape `s`, up to its closing brace. -/
def entries : Nat → Nat → Shape → Shape → SortedMap String Json → Bool →
    Read (SortedMap String Json)
  | 0, _, _, _, _, _ => fail .eofObject
  | fuel + 1, depth, self, s, acc, first => do
    match ← nextKey first with
    | none => pure acc
    | some k => do
      colon
      let v ← value fuel depth self s
      entries fuel depth self s (acc.insert k v) false

/-- The members of a record written as an object, up to its closing brace: the value of each
    field seen, or the decoding fault of a field given twice. -/
def members : Nat → Nat → Shape → List (String × Shape) → Array (Option Json) → Bool →
    Read (Except DecodeError (Array (Option Json)))
  | 0, _, _, _, _, _ => fail .eofObject
  | fuel + 1, depth, self, fields, acc, first => do
    match ← nextKey first with
    | none => pure (.ok acc)
    | some k =>
      match fields.findIdx? (·.1 == k) with
      | some i =>
        if (acc[i]?).join.isSome then pure (.error (.duplicateField k))
        else do
          colon
          let v ← value fuel depth self ((fields[i]?.map (·.2)).getD .string)
          members fuel depth self fields (acc.setIfInBounds i (some v)) false
      | none => do
        colon
        skip fuel
        members fuel depth self fields acc false

/-- The fields `rest` of a record called `name` with fields `all`, written as a list, in
    order: their values, or an invalid length when the list ends before a field without a
    default. -/
def fieldItems : Nat → Nat → Shape → String → List (String × Shape) →
    List (String × Shape) → Array Json → Read (Except DecodeError (Array Json))
  | 0, _, _, _, _, _, _ => fail .eofList
  | _ + 1, _, _, _, _, [], acc => pure (.ok acc)
  | fuel + 1, depth, self, name, all, (_, s) :: rest, acc => do
    if ← nextItem acc.isEmpty then
      let v ← value fuel depth self s
      fieldItems fuel depth self name all rest (acc.push v)
    else
      match Shape.firstRequired all acc.size with
      | some i => pure (.error (.invalidLength i (recordLength name all.length)))
      | none => pure (.ok acc)
end

end JsonText

/-- Whether the text of `j` can be read again: its lists and objects nest less than
    `JsonText.nestingLimit` deep. -/
def Json.withinNestingLimit (j : Json) : Bool := j.depth < JsonText.nestingLimit

/-- Decode `text` as one value of `shape`, followed by nothing but blanks. -/
def Shape.decodeText (shape : Shape) (text : String) : Except JsonText.ReadError Json :=
  let b := text.toUTF8
  let run : JsonText.Read Json := do
    let v ← JsonText.value (4 * b.size + 16) JsonText.nestingLimit shape shape
    match ← JsonText.blanks with
    | some _ => JsonText.failPeek .trailingCharacters
    | none => pure v
  (run.run b).run' 0

end COutline
