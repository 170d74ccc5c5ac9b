import COutline.Json.Shape
import COutline.Json.Records

/-!
# Reading records back from JSON text

Each record this library writes as JSON (`COutline.Json.Records`) has a `Shape` under the same
field names, and a reader `ofJson?` of the normalized value that `Shape.decodeText` returns.
`Program.ofJsonText` and `Token.ofJsonText` chain the two: decoding fails with the reader's
message, and a decoded value always converts.

Counters such as offsets are machine words (`usize`, at most `2^64 - 1`); lines and columns
are 32-bit (`u32`).
-/

namespace COutline

namespace Shape

/-- A 64-bit unsigned count. -/
def word : Shape := .unsigned "usize" (Nat.pow 2 64 - 1)

/-- A 32-bit unsigned count. -/
def word32 : Shape := .unsigned "u32" (Nat.pow 2 32 - 1)

/-- `Position`: offset, line and column. -/
def position : Shape := .record "Position" [("offset", word), ("line", word32), ("column", word32)]

/-- `Span`: two positions. -/
def span : Shape := .record "Span" [("start", position), ("end", position)]

/-- `SourceLocation`: file, line and column. -/
def location : Shape :=
  .record "SourceLocation" [("file", .string), ("line", word32), ("column", word32)]

/-- `Token`: kind, text, location and span. -/
def token : Shape :=
  .record "Token" [("kind", .variants (TokenKind.all.map (·.name))), ("text", .string),
    ("location", location), ("span", span)]

/-- `VariableDeclaration`: a parameter's type and name. -/
def parameter : Shape := .record "VariableDeclaration" [("data_type", .string), ("name", .string)]

/-- `Block`: nested blocks, whether it was closed, and its span if known. -/
def block : Shape :=
  .record "Block" [("children", .seq .recur), ("terminated", .boolean), ("span", .option span)]

/-- `FunctionHeader`: name, parameters, return type and span if known. -/
def header : Shape :=
  .record "FunctionHeader" [("name", .string), ("parameters", .seq parameter),
    ("return_type", .string), ("span", .option span)]

/-- `FunctionDefinition`: header and body. -/
def definition : Shape := .record "FunctionDefinition" [("header", header), ("body", block)]

/-- `Program`: definitions by name. -/
def program : Shape := .record "Program" [("functions_by_name", .map definition)]

end Shape

/-- A position from its normalized record. -/
def Position.ofJson? : Json → Option Position
  | .obj [("offset", .num o), ("line", .num l), ("column", .num c)] =>
    some ⟨o.toNat, l.toNat, c.toNat⟩
  | _ => none

/-- A span from its normalized record. -/
def Span.ofJson? : Json → Option Span
  | .obj [("start", a), ("end", b)] => return ⟨← Position.ofJson? a, ← Position.ofJson? b⟩
  | _ => none

/-- An absent span (`null`) or a span. -/
def Span.optionOfJson? : Json → Option (Option Span)
  | .null => some none
  | j => some <$> Span.ofJson? j

/-- A token from its normalized record; the location is taken as written. -/
def Token.ofJson? : Json → Option Token
  | .obj [("kind", .str k), ("text", .str t),
      ("location", .obj [("file", .str f), ("line", .num l), ("column", .num c)]),
      ("span", s)] => do
    pure ⟨← TokenKind.ofName? k, t, ⟨f, l.toNat, c.toNat⟩, ← Span.ofJson? s⟩
  | _ => none

/-- A parameter from its normalized record. -/
def Parameter.ofJson? : Json → Option Parameter
  | .obj [("data_type", .str t), ("name", .str n)] => some ⟨t, n⟩
  | _ => none

mutual
/-- A block from its normalized record. -/
def Block.ofJson? : Json → Option Block
  | .obj [("children", .arr cs), ("terminated", .bool t), ("span", s)] =>
    return ⟨← Block.listOfJson? cs, t, ← Span.optionOfJson? s⟩
  | _ => none

/-- Blocks from their normalized records. -/
def Block.listOfJson? : List Json → Option (List Block)
  | [] => some []
  | j :: js => return (← Block.ofJson? j) :: (← Block.listOfJson? js)
end

/-- A function header from its normalized record. -/
def FunctionHeader.ofJson? : Json → Option FunctionHeader
  | .obj [("name", .str n), ("parameters", .arr ps), ("return_type", .str r), ("span", s)] =>
    return ⟨n, ← ps.mapM Parameter.ofJson?, r, ← Span.optionOfJson? s⟩
  | _ => none

/-- A function definition from its normalized record. -/
def FunctionDefinition.ofJson? : Json → Option FunctionDefinition
  | .obj [("header", h), ("body", b)] => return ⟨← FunctionHeader.ofJson? h, ← Block.ofJson? b⟩
  | _ => none

/-- A program from its normalized record. -/
def Program.ofJson? : Json → Option Program
  | .obj [("functions_by_name", .obj fs)] => do
    let ds ← fs.mapM fun (k, v) => return (k, ← FunctionDefinition.ofJson? v)
    pure ⟨SortedMap.ofList ds⟩
  | _ => none

/-- Read a value of `shape` from `text` and convert it with `convert`; the message of the
    first fault, if any. -/
def Shape.readText (shape : Shape) (convert : Json → Option α) (text : String) :
    Except String α :=
  match shape.decodeText text with
  | .error e => .error e.message
  | .ok j =>
    match convert j with
    | some a => .ok a
    | none => .error "invalid value"

/-- A program read from JSON text. -/
def Program.ofJsonText (text : String) : Except String Program :=
  Shape.program.readText Program.ofJson? text

/-- A token read from JSON text. -/
def Token.ofJsonText (text : String) : Except String Token :=
  Shape.token.readText Token.ofJson? text

end COutline
