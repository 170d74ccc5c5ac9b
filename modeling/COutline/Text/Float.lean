/-!
# Decimal texts of floating-point numbers

A decimal is kept as `± digits × 10^exponent` with no leading or trailing zero digit.  The two
layouts below print it digit for digit; given the shortest digits of a double
(`DecimalFloat.rounded`) they print what shortest-digit printers print:

* `scientificText` — positional when the first digit stands for `10^x` with `-5 ≤ x < 16`
  (`0.00001`, `123.0`, `9007199254740994.0`), else `d.ddde±X`, the exponent always signed
  (`1e+16`, `1.5e-7`, `1e+300`);
* `positionalText` — always positional, with `.0` added to an integral value
  (`100000000000000000000.0`, `0.00000015`).

Zero is `0.0` or `-0.0` in both.
-/

namespace COutline

/-- A decimal number `± digits × 10^exponent`; `digits` has no leading or trailing zero and is
    empty for zero. -/
structure DecimalFloat where
  negative : Bool
  digits : List Nat
  exponent : Int
deriving Repr, DecidableEq, Inhabited

namespace DecimalFloat

/-- The value of a digit list. -/
def digitsValue (ds : List Nat) : Nat := ds.foldl (fun v d => v * 10 + d) 0

/-- Digits `ds` (no leading zero) times `10^e`, without trailing zeros. -/
def normalize (negative : Bool) (ds : List Nat) (e : Int) : DecimalFloat :=
  let trimmed := (ds.reverse.dropWhile (· = 0)).reverse
  ⟨negative, trimmed, e + ((ds.length - trimmed.length : Nat) : Int)⟩

/-- The decimal written with integer digits `whole`, fraction digits `frac` and exponent `e`. -/
def ofParts (negative : Bool) (whole frac : List Nat) (e : Int) : DecimalFloat :=
  normalize negative ((whole ++ frac).dropWhile (· = 0)) (e - frac.length)

/-- Where the decimal point stands after the first digit: the value is `0.digits × 10^k`. -/
def pointPosition (d : DecimalFloat) : Int := d.digits.length + d.exponent

/-- The digits as text. -/
def digitText (ds : List Nat) : String := String.ofList (ds.map fun d => Char.ofNat (d + 48))

/-- `n` zeros. -/
def zeros (n : Nat) : String := String.ofList (List.replicate n '0')

/-- The sign prefix. -/
def sign (d : DecimalFloat) : String := if d.negative then "-" else ""

/-- The positional text of a nonzero value. -/
def positional (d : DecimalFloat) : String :=
  let k := d.pointPosition
  if 0 ≤ d.exponent then d.sign ++ digitText d.digits ++ zeros d.exponent.toNat ++ ".0"
  else if 0 < k then
    d.sign ++ digitText (d.digits.take k.toNat) ++ "." ++ digitText (d.digits.drop k.toNat)
  else d.sign ++ "0." ++ zeros (-k).toNat ++ digitText d.digits

/-- The exponent `x` of a scientific text, always signed. -/
def exponentText (x : Int) : String := (if x < 0 then "-" else "+") ++ toString x.natAbs

/-- Positional when the first digit stands for `10^x` with `-5 ≤ x < 16`, else mantissa and
    exponent. -/
def scientificText (d : DecimalFloat) : String :=
  let x := d.pointPosition - 1
  match d.digits with
  | [] => d.sign ++ "0.0"
  | first :: rest =>
    if -5 ≤ x && x < 16 then d.positional
    else
      match rest with
      | [] => d.sign ++ digitText [first] ++ "e" ++ exponentText x
      | _ => d.sign ++ digitText [first] ++ "." ++ digitText rest ++ "e" ++ exponentText x

/-- Always positional, `.0` for an integral value. -/
def positionalText (d : DecimalFloat) : String :=
  match d.digits with
  | [] => d.sign ++ "0.0"
  | _ => d.positional

example : (ofParts false [1] [] 20).scientificText = "1e+20" := by decide

example : (ofParts false [1] [] (-5)).scientificText = "0.00001" := by decide

end DecimalFloat

end COutline
