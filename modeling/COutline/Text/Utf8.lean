/-!
# UTF-8 lengths of character lists

Source text is handled as a list of characters, while offsets are counted in UTF-8 bytes.
This module measures character lists in bytes and cuts them at a byte offset, refusing an
offset that falls inside a character.  The main facts: the byte size of a concatenation is the
sum of the sizes, and cutting at the size of a prefix gives that prefix back.
-/

namespace COutline.Utf8

/-- The number of UTF-8 bytes that encode `cs` (a left fold, so long texts need no deep
    recursion). -/
def size (cs : List Char) : Nat := cs.foldl (fun n c => n + c.utf8Size) 0

theorem foldl_size_shift (n : Nat) (cs : List Char) :
    cs.foldl (fun n c => n + c.utf8Size) n = n + size cs := by
  induction cs generalizing n with
  | nil => simp [size]
  | cons c cs ih =>
    simp only [size, List.foldl_cons, Nat.zero_add]
    rw [ih, ih c.utf8Size, Nat.add_assoc]

@[simp] theorem size_nil : size [] = 0 := rfl

@[simp] theorem size_cons (c : Char) (cs : List Char) : size (c :: cs) = c.utf8Size + size cs := by
  simp only [size, List.foldl_cons, Nat.zero_add]
  exact foldl_size_shift c.utf8Size cs

@[simp] theorem size_append (xs ys : List Char) : size (xs ++ ys) = size xs + size ys := by
  induction xs with
  | nil => simp
  | cons c cs ih => simp [ih, Nat.add_assoc]

/-- Split `cs` after exactly `n` bytes, the characters passed so far gathered reversed in `acc`;
    `none` when byte `n` lies inside a character or past the end. -/
def splitAtFrom : List Char → Nat → List Char → Option (List Char × List Char)
  | cs, 0, acc => some (acc.reverse, cs)
  | [], _ + 1, _ => none
  | c :: cs, n + 1, acc =>
    if c.utf8Size ≤ n + 1 then splitAtFrom cs (n + 1 - c.utf8Size) (c :: acc) else none

/-- Split `cs` after exactly `n` bytes; `none` when byte `n` lies inside a character or past
    the end. -/
def splitAt? (cs : List Char) (n : Nat) : Option (List Char × List Char) := splitAtFrom cs n []

/-- The characters in the byte range `[lo, hi)`, when both ends fall between characters. -/
def slice? (cs : List Char) (lo hi : Nat) : Option (List Char) := do
  let (_, rest) ← splitAt? cs lo
  if lo ≤ hi then
    let (mid, _) ← splitAt? rest (hi - lo)
    pure mid
  else none

/-- Whether byte offset `n` falls between two characters of `cs` (or at either end). -/
def isBoundary (cs : List Char) (n : Nat) : Bool := (splitAt? cs n).isSome

end COutline.Utf8
