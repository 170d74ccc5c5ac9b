import COutline.Toml.Parser
import COutline.Json.Shape

/-!
# Reading values of a shape out of TOML documents

`Toml.decodeText shape text` reads a document and decodes its root table as a value of
`shape` (`COutline.Shape`), giving the same normalized JSON as decoding JSON text, except that
an optional record field that is absent stays absent (so that laying the result over defaults
keeps them).

A fault is placed on the value it concerns and names the keys leading to it:

* a fault inside a value of a table is placed on that value (or on its key, for a table made
  only by a deeper header or dotted key), and the entry's key is put in front of the keys;
* a missing field is placed on the table that lacks it: its header, stretched to the end of
  the table's last value;
* an enumeration value is a string, or a table of one entry whose key names the variant and
  whose value is empty.

Tables decode their entries in the order they were first written; entries that are no field
of the record are skipped.  Arrays decode as sequences and also as records whose fields are
given in order.
-/

namespace COutline

namespace Toml

/-- What a decoding fault says about the node it met: dates and tables are maps, arrays
    sequences, and a float is shown positionally (`inf`, `-inf` and `NaN` as such). -/
def Node.found : Node → Found
  | .scalar (.string s) _ => .string s
  | .scalar (.integer i) _ => .integer i
  | .scalar (.float (.finite d)) _ => .float d.positionalText
  | .scalar (.float (.infinite false)) _ => .float "inf"
  | .scalar (.float (.infinite true)) _ => .float "-inf"
  | .scalar (.float .nan) _ => .float "NaN"
  | .scalar (.boolean b) _ => .boolean b
  | .scalar (.datetime _) _ => .map
  | .array .. | .tables .. => .sequence
  | .inline .. | .table .. => .map

/-- The entries of a table node.  A date or time is read as a table too, of one entry that
    no record has as a field, so a record decoded from it gets only its defaults. -/
def Node.entries? : Node → Option Entries
  | .inline es _ _ | .table es _ _ _ => some es
  | .scalar (.datetime _) _ => some []
  | _ => none

/-- The items of an array node. -/
def Node.items? : Node → Option (List Node)
  | .array items _ | .tables items _ => some items
  | _ => none

/-- A decoding fault: why, where (when known), and the keys leading to the value. -/
structure Mismatch where
  error : DecodeError
  span : Option Range := none
  keys : List String := []
deriving Repr, Inhabited

/-- Decoding into a value of type `α`. -/
abbrev Decoding (α : Type) := Except Mismatch α

/-- Fail with `e`, placed nowhere yet. -/
def mismatch (e : DecodeError) : Decoding α := throw { error := e }

/-- Place a fault of `r` that has no place yet at `span`. -/
def placeAt (span : Option Range) (r : Decoding α) : Decoding α :=
  r.mapError fun m => if m.span.isSome then m else { m with span }

/-- Decode the value of the entry `k`: its fault is placed on the value, or on the key when
    the value has no place, and `k` goes in front of its keys. -/
def underKey (k : Key) (v : Node) (r : Decoding α) : Decoding α :=
  r.mapError fun m =>
    let m := if m.span.isSome then m else { m with span := v.span? <|> some k.span }
    { m with keys := k.name :: m.keys }

/-- The name of a node's type, as enumeration faults name it. -/
def Node.kindName : Node → String := Node.typeName

/-- The variant named by an enumeration value of `names`. -/
def variantOf (names : List String) (n : Node) : Decoding String :=
  placeAt n.span? <|
  match n with
  | .scalar (.string s) _ =>
    match DecodeError.variant names s with
    | .ok w => pure w
    | .error e => mismatch e
  | .inline es sp _ | .table es sp _ _ =>
    match es with
    | [] => throw { error := .custom "wanted exactly 1 element, found 0 elements", span := sp }
    | [(k, v)] => do
      let w ← (DecodeError.variant names k.name).mapError
        fun e => ({ error := e, span := some k.span } : Mismatch)
      match v with
      | .array [] _ | .tables [] _ | .inline [] _ _ | .table [] _ _ _ => pure w
      | .tables _ sp => throw { error := .custom "expected empty array", span := sp }
      | .array _ sp => throw { error := .custom "expected empty table", span := some sp }
      | .inline _ sp _ | .table _ sp _ _ =>
        throw { error := .custom "expected empty table", span := sp }
      | other =>
        throw { error := .custom ("expected table, found " ++ other.kindName), span := other.span? }
    | _ => throw { error := .custom "wanted exactly 1 element, more than 1 element", span := sp }
  | other => throw { error := .custom "wanted string or table", span := other.span? }

/-- An unsigned integer of the type `name`, at most `max`. -/
def unsignedOf (name : String) (max : Nat) (n : Node) : Decoding Json :=
  match n with
  | .scalar (.integer i) _ =>
    if 0 ≤ i && i.toNat ≤ max then pure (.num i) else mismatch (.invalidValue (.integer i) name)
  | other => mismatch (.invalidType other.found name)

/-- The decoded fields in declaration order; an absent optional or defaulted field is left
    out, and the
    first absent required field is missing. -/
def completeFields (fields : List (String × Shape)) (got : List (String × Json)) :
    Decoding (List (String × Json)) :=
  fields.filterMapM fun (f, s) =>
    match got.find? (·.1 == f), s with
    | some (_, j), _ => pure (some (f, j))
    | none, .option _ | none, .defaulted _ => pure none
    | none, _ => mismatch (.missingField f)

/-- The fields of a record called `name` given in order by `count` items: a defaulted field
    is left out, and another field without an item makes the list too short. -/
def missingItems (name : String) (fields : List (String × Shape)) (count : Nat) :
    Decoding Unit :=
  match Shape.firstRequired fields count with
  | some i => mismatch (.invalidLength i (JsonText.recordLength name fields.length))
  | none => pure ()

/-- Decode `n` as a value of `shape`; `fuel` bounds the nesting of the document. -/
def decodeNode : Nat → Shape → Node → Decoding Json
  | 0, _, n => placeAt n.span? (mismatch (.custom "value nested too deeply"))
  | fuel + 1, shape, n =>
    placeAt n.span? <|
    match shape, n with
    | .string, .scalar (.string s) _ => pure (.str s)
    | .string, other => mismatch (.invalidType other.found "a string")
    | .boolean, .scalar (.boolean b) _ => pure (.bool b)
    | .boolean, other => mismatch (.invalidType other.found "a boolean")
    | .unsigned name max, other => unsignedOf name max other
    | .variants names, other => Json.str <$> variantOf names other
    | .option s, other | .defaulted s, other => decodeNode fuel s other
    | .seq s, other =>
      match other.items? with
      | some items => Json.arr <$> items.mapM (decodeNode fuel s)
      | none => mismatch (.invalidType other.found "a sequence")
    | .map s, other =>
      match other.entries? with
      | some es => Json.obj <$> es.mapM fun (k, v) => do
          return (k.name, ← underKey k v (decodeNode fuel s v))
      | none => mismatch (.invalidType other.found "a map")
    | .record name fields, other =>
      match other.entries?, other.items? with
      | some es, _ => do
        let got ← es.filterMapM fun (k, v) =>
          match fields.find? (·.1 == k.name) with
          | some (_, s) => do return some (k.name, ← underKey k v (decodeNode fuel s v))
          | none => pure none
        Json.obj <$> completeFields fields got
      | none, some items => do
        let given ← (fields.zip items).mapM fun ((f, s), v) => do
          return (f, ← decodeNode fuel s v)
        missingItems name fields items.length
        pure (.obj given)
      | none, none => mismatch (.invalidType other.found ("struct " ++ name))
    | .recur, _ => mismatch (.custom "recursive shapes are not read from TOML")

/-- The report of a decoding fault. -/
def Mismatch.toError (m : Mismatch) : TomlError :=
  { message := m.error.message "unit value", keys := m.keys, span := m.span }

/-- Read `text` and decode its root table as a value of `shape`. -/
def decodeText (shape : Shape) (text : String) : Except TomlError Json := do
  let root ← parse text
  (decodeNode (text.utf8ByteSize + 2) shape root).mapError Mismatch.toError

end Toml

end COutline
