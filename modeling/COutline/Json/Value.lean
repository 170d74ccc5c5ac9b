import COutline.Json.Shape

/-!
# Decoding JSON values against a shape

`Shape.decodeValue` checks a `Json` value that has been read already (objects ordered by key,
one member per key) against a `Shape`, and gives the same normalized value as
`Shape.decodeText` gives for a text.  Its faults carry no place:

* a record's members are decoded in key order, unknown ones ignored, and then the first field
  missing in declaration order is reported; a missing optional field is `null` and a missing
  defaulted field is left out;
* a record written as a list has its items decoded in field order; it may end early only where
  the fields left have defaults, and a longer list is refused after its items are decoded;
* an enumeration value is written either as its name (`"strict"`) or as an object with the name
  as its only key (`{"strict": null}`), and a unit variant accepts only `null` beside its name.

Anything else is an invalid type, described as `Found` does, with `null` for the absent value.
-/

namespace COutline

namespace Json

/-- What decoders call this value in their messages. -/
def found : Json → Found
  | null => .unit
  | bool b => .boolean b
  | num n => .integer n
  | float t => .float t
  | str s => .string s
  | arr _ => .sequence
  | obj _ => .map

/-- The name of a unit variant of the enumeration with names `names`. -/
def unitVariant (names : List String) : Json → Except DecodeError String
  | str s => DecodeError.variant names s
  | obj [(k, v)] => do
    let name ← DecodeError.variant names k
    match v with
    | null => pure name
    | other => throw (.invalidType other.found "unit")
  | obj _ => throw (.invalidValue .map "map with a single key")
  | other => throw (.invalidType other.found "string or map")

/-- The message of a decoding failure of a JSON value. -/
def decodeMessage (e : DecodeError) : String := e.message "null"

end Json

namespace Shape

/-- Decode `v` as a value of `shape`, with `self` the innermost enclosing record; `fuel` bounds
    the steps, each of which enters a list or an object or unwraps the shape. -/
def decodeSteps : Nat → Shape → Shape → Json → Except DecodeError Json
  | 0, _, _, _ => throw (.custom "value nested too deeply")
  | fuel + 1, self, shape, v =>
    match shape, v with
    | .string, .str s => pure (.str s)
    | .string, other => throw (.invalidType other.found "a string")
    | .boolean, .bool b => pure (.bool b)
    | .boolean, other => throw (.invalidType other.found "a boolean")
    | .unsigned name max, .num n =>
      if 0 ≤ n && n.toNat ≤ max then pure (.num n) else throw (.invalidValue (.integer n) name)
    | .unsigned name _, other => throw (.invalidType other.found name)
    | .variants names, other => Json.str <$> Json.unitVariant names other
    | .option _, .null => pure .null
    | .option s, other => decodeSteps fuel self s other
    | .defaulted s, other => decodeSteps fuel self s other
    | .recur, other => decodeSteps fuel self self other
    | .seq s, .arr xs => Json.arr <$> xs.mapM (decodeSteps fuel self s)
    | .seq _, other => throw (.invalidType other.found "a sequence")
    | .map s, .obj fs =>
      Json.obj <$> fs.mapM fun (k, x) => return (k, ← decodeSteps fuel self s x)
    | .map _, other => throw (.invalidType other.found "a map")
    | .record _ fields, .obj fs => do
      let got ← fs.filterMapM fun (k, x) =>
        match fields.find? (·.1 == k) with
        | some (_, s) => return some (k, ← decodeSteps fuel shape s x)
        | none => pure none
      let values := fields.map fun (f, _) => (got.find? (·.1 == f)).map (·.2)
      Json.obj <$> JsonText.complete fields values
    | .record name fields, .arr xs => do
      let given ← (fields.zip xs).mapM fun ((f, s), x) =>
        return (f, ← decodeSteps fuel shape s x)
      match firstRequired fields xs.length with
      | some i => throw (.invalidLength i (JsonText.recordLength name fields.length))
      | none =>
        if fields.length < xs.length then
          throw (.invalidLength xs.length "fewer elements in array")
        else pure (.obj given)
    | .record name _, other => throw (.invalidType other.found ("struct " ++ name))

/-- Decode the value `v` as a value of `shape`.  Each nesting level of `v` takes one step,
    plus one for each `option`, `defaulted` or `recur` around the shape met there; sixteen
    steps a level are more than the shapes of this library wrap. -/
def decodeValue (shape : Shape) (v : Json) : Except DecodeError Json :=
  decodeSteps (16 * (v.depth + 1)) shape shape v

end Shape

end COutline
