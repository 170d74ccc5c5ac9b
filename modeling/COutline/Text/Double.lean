import COutline.Text.Float

/-!
# Reading decimals as doubles

A decimal read as a double becomes the double nearest to it (a tie goes to the even
mantissa), infinite past the largest double and zero below half the smallest.  A finite
double `m · 2^q` stands for every real that rounds to it: those strictly between the midpoints
to its two neighbours, the midpoints included when `m` is even.  Its shortest decimal is the
decimal with the fewest significant digits in that interval, and of two with as few digits the
nearer one (`shortest`), an exact tie settled by a `Tie` the printer chooses;
`DecimalFloat.rounded` replaces a written decimal by that.

Products and quotients of doubles (`mul`, `div`) round the same way, and `scaled` builds
`significand · 10^e` from them one rounded step at a time, as fast readers do.

All of it is exact arithmetic on natural numbers: a double `m · 2^q` with `q < 0` is the
decimal `m · 5^(-q) · 10^q`.
-/

namespace COutline

namespace Double

/-- `a / b` rounded to the nearest natural number, a tie to the even one. -/
def roundHalfEven (a b : Nat) : Nat :=
  let q := a / b
  let r := a % b
  if 2 * r > b || (2 * r = b && q % 2 = 1) then q + 1 else q

/-- The number of binary digits of `n` (none for zero). -/
def bitLength (n : Nat) : Nat := if n = 0 then 0 else Nat.log2 n + 1

/-- The fraction `num / (den · 2^q)` as a numerator and a denominator. -/
def scaledDown (num den : Nat) (q : Int) : Nat × Nat :=
  if 0 ≤ q then (num, den * Nat.pow 2 q.toNat) else (num * Nat.pow 2 (-q).toNat, den)

/-- The double nearest to `num / den` (`den > 0`), as `(m, q)` with value `m · 2^q`: `m` has
    53 binary digits, or fewer at the least exponent `-1074`; `none` when the value rounds to
    infinity.  The quotient lies strictly between `2^(k-1)` and `2^(k+1)` for `k` the
    difference of the two lengths, which fixes the exponent up to one. -/
def nearest (num den : Nat) : Option (Nat × Int) :=
  let k : Int := (bitLength num : Int) - bitLength den
  let q₀ := k - 53
  let (a, b) := scaledDown num den q₀
  let q := max (if a / b ≥ Nat.pow 2 53 then q₀ + 1 else q₀) (-1074)
  let (a, b) := scaledDown num den q
  let m := roundHalfEven a b
  let (m, q) := if m = Nat.pow 2 53 then (Nat.pow 2 52, q + 1) else (m, q)
  if q + 53 > 1024 then none else some (m, q)

/-- The product of the doubles `a` and `b`, rounded to the nearest double; `none` when it is
    infinite. -/
def mul (a b : Nat × Int) : Option (Nat × Int) :=
  let (num, den) := scaledDown (a.1 * b.1) 1 (-(a.2 + b.2))
  nearest num den

/-- The quotient of the doubles `a` and `b` (`b` nonzero), rounded to the nearest double. -/
def div (a b : Nat × Int) : Option (Nat × Int) :=
  let (num, den) := scaledDown a.1 b.1 (b.2 - a.2)
  nearest num den

/-- The double nearest to `10^k`; every `k ≤ 308` has a finite one. -/
def powerOfTen (k : Nat) : Nat × Int := (nearest (Nat.pow 10 k) 1).getD (0, 0)

/-- Scale the double `f` by `10^e` in double steps, at most `fuel` of them: one multiplication
    by the double nearest to `10^e` (`none` when infinite) or one division by that nearest to
    `10^-e` while `|e| ≤ 308`; past that a zero stays zero, a positive `e` is out of range, and
    a negative one first divides by `10^308`. -/
def scaleSteps : Nat → Nat × Int → Int → Option (Nat × Int)
  | 0, f, _ => some f
  | fuel + 1, f, e =>
    if e.natAbs ≤ 308 then
      if 0 ≤ e then mul f (powerOfTen e.natAbs) else div f (powerOfTen e.natAbs)
    else if f.1 = 0 then some f
    else if 0 ≤ e then none
    else (div f (powerOfTen 308)).bind fun g => scaleSteps fuel g (e + 308)

/-- `significand · 10^e` computed as a double the quick way: the significand (below `2^64`)
    rounded to a double, then scaled by `scaleSteps`.  Three steps always suffice, since two
    divisions by `10^308` take any such significand to zero.  Unlike `nearest`, each step
    rounds, so the last digit may differ from the correctly rounded value. -/
def scaled (significand : Nat) (e : Int) : Option (Nat × Int) :=
  (nearest significand 1).bind fun f => scaleSteps 4 f e

/-- How `c · 10^p` compares with `x · 2^r`. -/
def compareScaled (c : Nat) (p : Int) (x : Nat) (r : Int) : Ordering :=
  compare (c * Nat.pow 10 (max p 0).toNat * Nat.pow 2 (max (-r) 0).toNat)
    (x * Nat.pow 2 (max r 0).toNat * Nat.pow 10 (max (-p) 0).toNat)

/-- The number of decimal digits of `n`. -/
def decimalLength (n : Nat) : Nat := (toString n).length

/-- How the shortest digits settle an exact tie: the double lies midway between the two
    candidates of as few digits. -/
inductive Tie where
  /-- The candidate whose last digit is even. -/
  | even
  /-- The candidate of greater magnitude. -/
  | up
deriving Repr, DecidableEq, Inhabited

/-- The shortest decimal `c · 10^p` that reads back as the double `m · 2^q` (`m > 0`).  In
    units of `2^(q-2)` the double is `4m` and its interval reaches from `4m - 2` (`4m - 1` below
    a power of two, where the neighbour is nearer) to `4m + 2`.  For each count of digits the
    candidates are the value cut to that many digits and the next decimal up; of two inside,
    the nearer wins, and `tie` settles a tie. -/
def shortest (tie : Tie) (m : Nat) (q : Int) : Nat × Int :=
  let even := m % 2 = 0
  let r := q - 2
  let lo := if m = Nat.pow 2 52 && q > -1074 then 4 * m - 1 else 4 * m - 2
  let hi := 4 * m + 2
  let inside (c : Nat) (p : Int) : Bool :=
    match compareScaled c p lo r, compareScaled c p hi r with
    | .gt, .lt => true
    | .eq, .lt | .gt, .eq => even
    | _, _ => false
  let (exact, t) : Nat × Int :=
    if 0 ≤ q then (m * Nat.pow 2 q.toNat, 0) else (m * Nat.pow 5 (-q).toNat, q)
  let length := decimalLength exact
  let pick (digits : Nat) : Option (Nat × Int) :=
    if length ≤ digits then some (exact, t)
    else
      let drop := length - digits
      let c := exact / Nat.pow 10 drop
      let p := t + drop
      match inside c p, inside (c + 1) p with
      | true, true =>
        match compareScaled (2 * c + 1) p (8 * m) r with
        | .lt => some (c + 1, p)
        | .gt => some (c, p)
        | .eq =>
          match tie with
          | .even => some (if c % 2 = 0 then c else c + 1, p)
          | .up => some (c + 1, p)
      | true, false => some (c, p)
      | false, true => some (c + 1, p)
      | false, false => none
  ((List.range 17).findSome? fun k => pick (k + 1)).getD (exact, t)

end Double

namespace DecimalFloat

/-- The decimal whose digits are those of `n`, times `10^p`. -/
def ofNat (negative : Bool) (n : Nat) (p : Int) : DecimalFloat :=
  normalize negative ((Nat.toDigits 10 n).map (·.toNat - 48)) p

/-- The shortest decimal of the double `m · 2^q`, with the given sign, a tie settled by
    `tie`. -/
def ofDouble (tie : Double.Tie) (negative : Bool) (f : Nat × Int) : DecimalFloat :=
  if f.1 = 0 then ⟨negative, [], 0⟩
  else
    let (c, p) := Double.shortest tie f.1 f.2
    ofNat negative c p

/-- The decimal read as a double and written back with the shortest digits, a tie settled
    by `tie`; `none` when the double is infinite.  Decimals from `10^310` on are infinite and
    those below `10^-330` zero without further arithmetic. -/
def rounded (tie : Double.Tie) (d : DecimalFloat) : Option DecimalFloat :=
  let k := d.pointPosition
  if d.digits.isEmpty then some d
  else if 310 ≤ k then none
  else if k < -330 then some { d with digits := [], exponent := 0 }
  else
    let n := digitsValue d.digits
    let (num, den) := if 0 ≤ d.exponent then (n * Nat.pow 10 d.exponent.toNat, 1)
      else (n, Nat.pow 10 (-d.exponent).toNat)
    match Double.nearest num den with
    | none => none
    | some (0, _) => some { d with digits := [], exponent := 0 }
    | some (m, q) =>
      let (c, p) := Double.shortest tie m q
      some (ofNat d.negative c p)

example : (ofParts false [0] [1] 0).rounded .even = some ⟨false, [1], -1⟩ := by
  decide

end DecimalFloat

end COutline
