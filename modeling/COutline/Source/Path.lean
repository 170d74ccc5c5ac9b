/-!
# File paths and their order

A path is read as a list of components: a leading `/` is the root, a leading `.` the current
directory, `..` the parent, and every other non-empty piece between slashes a name; repeated
slashes and a `.` that does not lead are not components.  Paths are ordered component by
component (root, current, parent, then names by their text), and two paths with the same
components are the same path, however they are spelt.
-/

namespace COutline

/-- One component of a path. -/
inductive PathPart where
  | root
  | current
  | parent
  | name (s : String)
deriving Repr, DecidableEq, Inhabited

namespace PathPart

/-- Root before current before parent before names. -/
def rank : PathPart → Nat
  | root => 0
  | current => 1
  | parent => 2
  | name _ => 3

/-- Components compare by rank, names by their text. -/
instance : Ord PathPart where
  compare a b :=
    match a, b with
    | name x, name y => compare x y
    | _, _ => compare a.rank b.rank

end PathPart

/-- A file path, kept as written. -/
structure SourcePath where
  text : String
deriving Repr, DecidableEq, Inhabited

namespace SourcePath

/-- The pieces between slashes that are components: no empty piece, no `.`. -/
def namedParts (pieces : List String) : List PathPart :=
  pieces.filterMap fun p =>
    if p = "" ∨ p = "." then none else if p = ".." then some .parent else some (.name p)

/-- The components of the path. -/
def parts (p : SourcePath) : List PathPart :=
  match p.text.splitOn "/" with
  | "" :: rest => if p.text.isEmpty then [] else .root :: namedParts rest
  | "." :: rest => .current :: namedParts rest
  | pieces => namedParts pieces

/-- Lexicographic order of component lists. -/
def compareParts : List PathPart → List PathPart → Ordering
  | [], [] => .eq
  | [], _ :: _ => .lt
  | _ :: _, [] => .gt
  | a :: as, b :: bs =>
    match compare a b with
    | .eq => compareParts as bs
    | o => o

/-- Paths are ordered by their components. -/
instance : Ord SourcePath := ⟨fun a b => compareParts a.parts b.parts⟩

end SourcePath

end COutline
