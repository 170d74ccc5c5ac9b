import COutline.Text.Quote

/-!
# Why a structured value does not decode

Reading a record or an enumeration out of a data format (JSON, TOML) fails for a handful of
reasons, and each has one fixed wording:

* `invalid type: FOUND, expected WHAT` — a value of the wrong kind;
* `invalid value: FOUND, expected WHAT` — the right kind out of range;
* ``unknown variant `v`, expected …`` — a name that is none of the enumeration's;
* `invalid length N, expected WHAT` — a sequence too short for a record;
* ``missing field `f` `` / ``duplicate field `f` ``.

`FOUND` describes the offending value (`Found.describe`); a format chooses only how its
absent value is called (`null` in JSON, `unit value` elsewhere).
-/

namespace COutline

/-- The value a decoder met where it wanted something else. -/
inductive Found where
  | boolean (b : Bool)
  | integer (i : Int)
  /-- A floating-point number, by its decimal text. -/
  | float (text : String)
  | string (s : String)
  /-- The format's absent value. -/
  | unit
  | sequence
  | map
deriving Repr, DecidableEq, Inhabited

namespace Found

/-- `boolean ` + "`true`", `integer ` + "`5`", `string "x"`, `sequence`, `map`, and `unitText`
    for the absent value. -/
def describe (unitText : String) : Found → String
  | boolean b => "boolean `" ++ (if b then "true" else "false") ++ "`"
  | integer i => "integer `" ++ (if i < 0 then "-" else "") ++ toString i.natAbs ++ "`"
  | float t => "floating point `" ++ t ++ "`"
  | string s => "string " ++ Text.listed s
  | unit => unitText
  | sequence => "sequence"
  | map => "map"

end Found

/-- Why decoding failed. -/
inductive DecodeError where
  | invalidType (found : Found) (expected : String)
  | invalidValue (found : Found) (expected : String)
  | unknownVariant (name : String) (expected : List String)
  /-- A sequence with `length` items where a fixed number was expected. -/
  | invalidLength (length : Nat) (expected : String)
  | missingField (name : String)
  | duplicateField (name : String)
  /-- A reason of the format itself, already worded. -/
  | custom (text : String)
deriving Repr, DecidableEq, Inhabited

namespace DecodeError

/-- A name between backticks. -/
def ticked (s : String) : String := "`" ++ s ++ "`"

/-- The alternatives an unknown name was not one of: none, one, two joined by `or`, or a
    comma-separated list after `one of`. -/
def alternatives : List String → String
  | [] => "there are no variants"
  | [a] => "expected " ++ ticked a
  | [a, b] => "expected " ++ ticked a ++ " or " ++ ticked b
  | names => "expected one of " ++ ", ".intercalate (names.map ticked)

/-- The message, with `unitText` naming the format's absent value. -/
def message (unitText : String) : DecodeError → String
  | invalidType f e => "invalid type: " ++ f.describe unitText ++ ", expected " ++ e
  | invalidValue f e => "invalid value: " ++ f.describe unitText ++ ", expected " ++ e
  | unknownVariant n names => "unknown variant " ++ ticked n ++ ", " ++ alternatives names
  | invalidLength n e => "invalid length " ++ toString n ++ ", expected " ++ e
  | missingField n => "missing field " ++ ticked n
  | duplicateField n => "duplicate field " ++ ticked n
  | custom t => t

/-- Decode one name of an enumeration whose names are `names`. -/
def variant (names : List String) (s : String) : Except DecodeError String :=
  if names.contains s then .ok s else .error (.unknownVariant s names)

end DecodeError

end COutline
