/-!
# Reading unsigned decimals and booleans

The readers that preference values from the environment go through: an unsigned decimal is an
optional `+` and one or more ASCII digits, with no blank anywhere, and must not exceed the
width's largest value; a boolean is exactly `true` or `false`.
-/

namespace COutline.Decimal

/-- The value of a digit string, or `none` when it is empty or holds a non-digit. -/
def digitsValue? (cs : List Char) : Option Nat :=
  if cs.isEmpty || !cs.all Char.isDigit then none
  else some (cs.foldl (fun n c => 10 * n + (c.toNat - '0'.toNat)) 0)

/-- An unsigned decimal no larger than `bound`: optional `+`, then digits. -/
def parseUnsigned? (s : String) (bound : Nat) : Option Nat :=
  let cs := match s.toList with
    | '+' :: rest => rest
    | cs => cs
  match digitsValue? cs with
  | some n => if n ≤ bound then some n else none
  | none => none

/-- The largest value of a 64-bit unsigned word. -/
def wordMax : Nat := 18446744073709551615

/-- `true` or `false`, spelled exactly so. -/
def parseBool? : String → Option Bool
  | "true" => some true
  | "false" => some false
  | _ => none

end COutline.Decimal
