/-!
# Runs and slices of byte strings

Readers of text formats walk the UTF-8 bytes of a document by index.  `runEnd` finds where a
run of bytes of one class ends, and `text` decodes a slice back to a string.
-/

namespace COutline

namespace Bytes

/-- The first index at or after `i` where `b` has no byte satisfying `p`. -/
def runEnd (p : UInt8 → Bool) (b : ByteArray) (i : Nat) : Nat :=
  if h : i < b.size then
    if p b[i] then runEnd p b (i + 1) else i
  else i
termination_by b.size - i

/-- The bytes `b[i … j)` as a string (empty when they are not UTF-8). -/
def text (b : ByteArray) (i j : Nat) : String := (String.fromUTF8? (b.extract i j)).getD ""

end Bytes

end COutline
