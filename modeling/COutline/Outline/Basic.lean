import COutline.Data.SortedMap
import COutline.Source.Span

/-!
# Outlines of functions: blocks, headers, definitions and programs

The outline of a compilation unit keeps, for each recognized function, its header (name,
return type, parameters) and the tree of braces of its body.  A `Block` is one `{ … }` region
with the blocks nested directly inside it; it is *terminated* when its closing brace was seen.
A `Program` maps function names, in name order, to definitions; inserting a definition whose
name is present either replaces the earlier one or is refused, as the duplicate policy says.
-/

namespace COutline

/-- A typed name, such as a parameter `int count`. -/
structure Parameter where
  dataType : String
  name : String
deriving Repr, DecidableEq, Inhabited

/-- `type name`. -/
def Parameter.render (p : Parameter) : String := p.dataType ++ " " ++ p.name

/-- A `{ … }` region and the regions nested directly inside it. -/
structure Block where
  children : List Block := []
  /-- Whether the closing brace was seen. -/
  terminated : Bool := true
  span : Option Span := none
deriving Repr, Inhabited

namespace Block

mutual
/-- Nesting depth, counting the block itself: an empty block has depth 1. -/
def depth : Block → Nat
  | ⟨cs, _, _⟩ => 1 + maxDepth cs

/-- The largest depth in a list of blocks, 0 for none. -/
def maxDepth : List Block → Nat
  | [] => 0
  | b :: bs => max b.depth (maxDepth bs)
end

mutual
/-- The number of blocks nested anywhere inside. -/
def nestedCount : Block → Nat
  | ⟨cs, _, _⟩ => nestedCountList cs

/-- Blocks in a list, each counted with everything nested inside it. -/
def nestedCountList : List Block → Nat
  | [] => 0
  | b :: bs => 1 + b.nestedCount + nestedCountList bs
end

mutual
/-- Whether the block and every block inside it saw a closing brace. -/
def isWellFormed : Block → Bool
  | ⟨cs, t, _⟩ => t && allWellFormed cs

/-- Whether every block of a list is well formed. -/
def allWellFormed : List Block → Bool
  | [] => true
  | b :: bs => b.isWellFormed && allWellFormed bs
end

end Block

/-- `return_type name ( parameters )`. -/
structure FunctionHeader where
  name : String
  parameters : List Parameter := []
  returnType : String
  span : Option Span := none
deriving Repr, Inhabited

/-- The signature, for example `int add(int a, int b)`. -/
def FunctionHeader.signature (h : FunctionHeader) : String :=
  h.returnType ++ " " ++ h.name ++ "(" ++ ", ".intercalate (h.parameters.map Parameter.render) ++
    ")"

/-- A recognized function: its header and its body. -/
structure FunctionDefinition where
  header : FunctionHeader
  body : Block
deriving Repr, Inhabited

namespace FunctionDefinition

/-- The function's name. -/
def name (d : FunctionDefinition) : String := d.header.name

/-- From the return type through the closing brace: the two spans merged, or whichever is
    known. -/
def span? (d : FunctionDefinition) : Option Span :=
  match d.header.span, d.body.span with
  | some h, some b => some (h.merge b)
  | h, b => h.or b

/-- `Function NAME returning TYPE`. -/
def render (d : FunctionDefinition) : String :=
  "Function " ++ d.header.name ++ " returning " ++ d.header.returnType

end FunctionDefinition

/-- What to do when a function name is defined a second time. -/
inductive DuplicatePolicy where
  /-- The later definition replaces the earlier one. -/
  | overwrite
  /-- The earlier definition stays and the later one is refused. -/
  | reject
deriving Repr, DecidableEq, Inhabited

namespace DuplicatePolicy

/-- `overwrite` or `reject`. -/
def word : DuplicatePolicy → String
  | .overwrite => "overwrite"
  | .reject => "reject"

/-- Both policies, overwrite first. -/
def all : List DuplicatePolicy := [.overwrite, .reject]

/-- The policy named `s`, if any. -/
def ofWord? (s : String) : Option DuplicatePolicy := all.find? (·.word == s)

end DuplicatePolicy

/-- What inserting a definition did. -/
inductive InsertOutcome where
  | inserted
  /-- Carries the definition that was displaced. -/
  | replaced (previous : FunctionDefinition)
  /-- Carries the refused definition; the program is unchanged. -/
  | rejected (refused : FunctionDefinition)
deriving Repr, Inhabited

/-- Every recognized function, by name. -/
structure Program where
  functions : SortedMap String FunctionDefinition := .empty
deriving Repr, Inhabited

namespace Program

/-- Add `d` under `name`, resolving a clash by `policy`. -/
def insertAs (p : Program) (name : String) (d : FunctionDefinition) (policy : DuplicatePolicy) :
    InsertOutcome × Program :=
  match p.functions.get? name, policy with
  | some _, .reject => (.rejected d, p)
  | some previous, .overwrite => (.replaced previous, ⟨p.functions.insert name d⟩)
  | none, _ => (.inserted, ⟨p.functions.insert name d⟩)

/-- Add `d` under its own name, resolving a clash by `policy`. -/
def insert (p : Program) (d : FunctionDefinition) (policy : DuplicatePolicy) :
    InsertOutcome × Program :=
  p.insertAs d.name d policy

/-- The definition named `name`. -/
def get? (p : Program) (name : String) : Option FunctionDefinition := p.functions.get? name

/-- Whether a function named `name` is defined. -/
def contains (p : Program) (name : String) : Bool := p.functions.contains name

/-- The names, in order. -/
def names (p : Program) : List String := p.functions.keys

/-- The number of functions. -/
def count (p : Program) : Nat := p.functions.size

/-- Whether no function is defined. -/
def isEmpty (p : Program) : Bool := p.functions.isEmpty

end Program

end COutline
