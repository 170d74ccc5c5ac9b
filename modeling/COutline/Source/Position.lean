import COutline.Text.Utf8

/-!
# Positions in source text

A `Position` names a place in a source text by byte offset, 1-based line and 1-based column.
Only a line feed starts a new line; every other character, a carriage return included, moves
one column to the right.  Columns count characters, offsets count UTF-8 bytes.  Lines and
columns are 32-bit counters and offsets 64-bit ones: a count that passes the largest value
starts again from zero.  The main facts: advancing over a concatenation advances over each
part in turn, and the offset moves by exactly the byte size of the text passed over (modulo
the counter's range).
-/

namespace COutline

/-- A place in a source text: byte offset, line and column (both 1-based). -/
structure Position where
  /-- Bytes before this place. -/
  offset : Nat
  /-- The line, counting from 1. -/
  line : Nat
  /-- The column in characters, counting from 1. -/
  column : Nat
deriving Repr, DecidableEq, Inhabited

namespace Position

/-- The first place of every text: offset 0, line 1, column 1. -/
def start : Position := ⟨0, 1, 1⟩

/-- Lines and columns are counted modulo this number. -/
def lineRange : Nat := Nat.pow 2 32

/-- Offsets are counted modulo this number. -/
def offsetRange : Nat := Nat.pow 2 64

/-- The place just after the character `c`, read at `p`. -/
def advance (p : Position) (c : Char) : Position :=
  if c = '\n' then ⟨(p.offset + 1) % offsetRange, (p.line + 1) % lineRange, 1⟩
  else ⟨(p.offset + c.utf8Size) % offsetRange, p.line, (p.column + 1) % lineRange⟩

/-- The place after reading every character of `cs`, from `p`. -/
def advanceList (p : Position) (cs : List Char) : Position := cs.foldl advance p

/-- The place after reading the text `s`, from `p`. -/
def advanceStr (p : Position) (s : String) : Position := p.advanceList s.toList

/-- `line:column`. -/
def render (p : Position) : String := toString p.line ++ ":" ++ toString p.column

@[simp] theorem advanceList_nil (p : Position) : p.advanceList [] = p := rfl

@[simp] theorem advanceList_cons (p : Position) (c : Char) (cs : List Char) :
    p.advanceList (c :: cs) = (p.advance c).advanceList cs := rfl

theorem advanceList_append (p : Position) (xs ys : List Char) :
    p.advanceList (xs ++ ys) = (p.advanceList xs).advanceList ys := by
  simp [advanceList, List.foldl_append]

/-- Every character moves the offset by its byte size. -/
@[simp] theorem advance_offset (p : Position) (c : Char) :
    (p.advance c).offset = (p.offset + c.utf8Size) % offsetRange := by
  unfold advance
  split
  · subst_vars; rfl
  · rfl

/-- Reading `cs` moves the offset by the byte size of `cs`, modulo the offset range. -/
theorem advanceList_offset (p : Position) (cs : List Char) :
    (p.advanceList cs).offset % offsetRange = (p.offset + Utf8.size cs) % offsetRange := by
  induction cs generalizing p with
  | nil => simp
  | cons c cs ih => simp [ih, Nat.mod_add_mod, Nat.add_assoc]

end Position

end COutline
