import COutline.Text.Float

/-!
# TOML documents

A parsed TOML document is a tree of `Node`s.  Tables keep their entries in the order the keys
were first written; every entry keeps its key's name and byte range, because error messages
name keys and point at them.  A message that quotes a key writes it in its standard spelling
(`Key.quoted`): bare when it can be, else in quotes.

Tables come in three sorts, as the TOML rules on redefinition need:

* a table opened by a `[header]` (explicit);
* an *implicit* table, made only to hold a deeper header (`[a.b]` makes `a`);
* a *dotted* table, made by a dotted key (`a.b = 1` makes `a`), implicit as well.

A header may take over an implicit table that is not dotted; every other redefinition is a
`duplicate key`, and descending through a value that is not a table is refused
(`TableFault.extendWrongType`).
-/

namespace COutline

namespace Toml

/-- A byte range `[start, stop)` of the document text. -/
structure Range where
  start : Nat
  stop : Nat
deriving Repr, DecidableEq, Inhabited

/-- A floating-point value: finite, infinite or not a number. -/
inductive FloatValue where
  | finite (d : DecimalFloat)
  | infinite (negative : Bool)
  | nan
deriving Repr, DecidableEq, Inhabited

/-- A value that is not a container. -/
inductive Scalar where
  | string (s : String)
  | integer (i : Int)
  | float (f : FloatValue)
  | boolean (b : Bool)
  /-- A date, a time or both, by its text. -/
  | datetime (text : String)
deriving Repr, DecidableEq, Inhabited

/-- A key: its name and where it stands. -/
structure Key where
  name : String
  span : Range
deriving Repr, DecidableEq, Inhabited

/-- A node of the document tree. -/
inductive Node where
  | scalar (s : Scalar) (span : Range)
  | array (items : List Node) (span : Range)
  /-- An inline table `{ … }`; `dotted` marks one made by a dotted key inside another. -/
  | inline (entries : List (Key × Node)) (span : Option Range) (dotted : Bool)
  /-- A table of the document, with its header's range when it has one. -/
  | table (entries : List (Key × Node)) (span : Option Range) (implicit dotted : Bool)
  /-- An array of tables `[[ … ]]`; the items are tables. -/
  | tables (items : List Node) (span : Option Range)
deriving Repr, Inhabited

namespace Node

/-- Where the node stands in the text, when known. -/
def span? : Node → Option Range
  | scalar _ s => some s
  | array _ s => some s
  | inline _ s _ => s
  | table _ s _ _ => s
  | tables _ s => s

/-- An array of tables, standing from its first table's header to the end of its last. -/
def tablesOf (items : List Node) : Node :=
  let span := match items.head?.bind span?, items.getLast?.bind span? with
    | some a, some b => some ⟨a.start, b.stop⟩
    | _, _ => none
  tables items span

/-- The name of a value's type, as the redefinition fault names it. -/
def typeName : Node → String
  | scalar (.string _) _ => "string"
  | scalar (.integer _) _ => "integer"
  | scalar (.float _) _ => "float"
  | scalar (.boolean _) _ => "boolean"
  | scalar (.datetime _) _ => "datetime"
  | array .. => "array"
  | inline .. => "inline table"
  | table .. => "table"
  | tables .. => "array of tables"

end Node

/-- Why a key cannot be placed in the document. -/
inductive TableFault where
  /-- `key` is defined a second time, in the table `within` (`none`: no table is named). -/
  | duplicateKey (key : String) (within : Option (List Key))
  /-- The dotted key `path` runs through a value of type `actual`. -/
  | extendWrongType (path : List Key) (actual : String)
deriving Repr, Inhabited

/-- The wording of a placement fault. -/
def TableFault.message : TableFault → String
  | .duplicateKey k none => "duplicate key `" ++ k ++ "`"
  | .duplicateKey k (some []) => "duplicate key `" ++ k ++ "` in document root"
  | .duplicateKey k (some ks) =>
    "duplicate key `" ++ k ++ "` in table `" ++ ".".intercalate (ks.map (·.name)) ++ "`"
  | .extendWrongType ks actual =>
    "dotted key `" ++ ".".intercalate (ks.map (·.name)) ++
      "` attempted to extend non-table type (" ++ actual ++ ")"

/-- Whether `c` may stand in a bare key: an ASCII letter or digit, `_` or `-`. -/
def isBareChar (c : Char) : Bool :=
  ('a' ≤ c && c ≤ 'z') || ('A' ≤ c && c ≤ 'Z') || ('0' ≤ c && c ≤ '9') || c = '_' || c = '-'

/-- Whether `c` is a control character, tab included. -/
def isControl (c : Char) : Bool := c.toNat < 0x20 || c.toNat = 0x7F

/-- The four upper-case hexadecimal digits of `n < 0x10000`. -/
def hex4 (n : Nat) : String :=
  let digit (d : Nat) : Char := "0123456789ABCDEF".toList.getD d '0'
  String.ofList [digit (n / 4096 % 16), digit (n / 256 % 16), digit (n / 16 % 16), digit (n % 16)]

/-- One character inside a quoted key with escapes. -/
def escapeChar (c : Char) : String :=
  if c.toNat = 8 then "\\b"
  else if c = '\t' then "\\t"
  else if c = '\n' then "\\n"
  else if c.toNat = 12 then "\\f"
  else if c = '\r' then "\\r"
  else if c = '"' then "\\\""
  else if c = '\\' then "\\\\"
  else if isControl c then "\\u" ++ hex4 c.toNat
  else c.toString

/-- The standard spelling of a key named `name`: bare when every character may be; else in
    double quotes when none needs escaping (no quote, backslash or control character); else in
    single quotes when it holds no apostrophe and no control character; else in double quotes
    with escapes (control characters as `\uXXXX`). -/
def Key.quoted (name : String) : String :=
  let cs := name.toList
  if !cs.isEmpty && cs.all isBareChar then name
  else if !cs.any fun c => c = '"' || c = '\\' || isControl c then "\"" ++ name ++ "\""
  else if !cs.any fun c => c.toNat = 39 || isControl c then "'" ++ name ++ "'"
  else "\"" ++ String.join (cs.map escapeChar) ++ "\""

example : Key.quoted "analyzer" = "analyzer" ∧ Key.quoted "say \"hi\"" = "'say \"hi\"'" := by
  decide

/-- The fault for redefining key number `i` of `path`, in the table its prefix names. -/
def duplicateAt (path : List Key) (i : Nat) : TableFault :=
  .duplicateKey (Key.quoted ((path[i]?.map (·.name)).getD "")) (some (path.take i))

/-- Entries of a table. -/
abbrev Entries := List (Key × Node)

namespace Entries

/-- The node under `name`. -/
def find? (es : Entries) (name : String) : Option Node :=
  (List.find? (fun (e : Key × Node) => e.1.name == name) es).map (·.2)

/-- Replace the node under `name`. -/
def replace (es : Entries) (name : String) (n : Node) : Entries :=
  es.map fun (k, m) => if k.name == name then (k, n) else (k, m)

/-- Remove the entry of `name`. -/
def erase (es : Entries) (name : String) : Entries := es.filter (·.1.name != name)

end Entries

/-- Walk down `ks` from the entries `es` of a document table, making implicit tables (dotted
    ones when `dotted`) where a key is missing, and apply `f` to whether the table reached is
    dotted and to its entries.  `here` says whether the table of `es` is dotted; `path` and `i`
    locate `ks` within the whole key path for faults. -/
def descend (path : List Key) (dotted : Bool)
    (f : Bool → Entries → Except TableFault (Entries × α)) :
    Nat → List Key → Bool → Entries → Except TableFault (Entries × α)
  | _, [], here, es => f here es
  | i, k :: ks, _, es =>
    match es.find? k.name with
    | none => do
      let (child, r) ← descend path dotted f (i + 1) ks dotted []
      pure (es ++ [(k, .table child none true dotted)], r)
    | some (.table ces sp imp dot) =>
      if dotted && !imp then throw (.duplicateKey k.name none)
      else do
        let (ces, r) ← descend path dotted f (i + 1) ks dot ces
        pure (es.replace k.name (.table ces sp imp dot), r)
    | some (.tables items sp) =>
      match items.getLast? with
      | some (.table ces tsp imp dot) => do
        let (ces, r) ← descend path dotted f (i + 1) ks dot ces
        pure (es.replace k.name (.tables (items.dropLast ++ [.table ces tsp imp dot]) sp), r)
      | _ => throw (duplicateAt path i)
    | some other => throw (.extendWrongType (path.take (i + 1)) other.typeName)

/-- Walk down `ks` inside an inline table, making dotted inline tables where a key is missing;
    a dotted key may not run into an inline table written out as `{ … }`.  `f` learns whether
    the table reached is dotted. -/
def descendInline (path : List Key) (f : Bool → Entries → Except TableFault (Entries × α)) :
    Nat → List Key → Bool → Entries → Except TableFault (Entries × α)
  | _, [], here, es => f here es
  | i, k :: ks, _, es =>
    match es.find? k.name with
    | none => do
      let (child, r) ← descendInline path f (i + 1) ks true []
      pure (es ++ [(k, .inline child none true)], r)
    | some (.inline ces sp dot) =>
      if !dot then throw (.duplicateKey k.name none)
      else do
        let (ces, r) ← descendInline path f (i + 1) ks dot ces
        pure (es.replace k.name (.inline ces sp dot), r)
    | some other => throw (.extendWrongType (path.take (i + 1)) other.typeName)

end Toml

end COutline
