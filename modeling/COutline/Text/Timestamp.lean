/-!
# Time stamps

A time stamp is written in the calendar of UTC as `YYYY-MM-DDThh:mm:ss.fffZ`, with as many
digits of the second's fraction as it needs in groups of three (none, 3, 6 or 9).
`civilOfDays` turns a count of days since 1970-01-01 into a year, a month and a day by the
proleptic Gregorian calendar, through 400-year eras of 146097 days each.
-/

namespace COutline

namespace Timestamp

/-- The year, month (1–12) and day (1–31) of day `z` counted from 1970-01-01. -/
def civilOfDays (z : Int) : Int × Nat × Nat :=
  let z := z + 719468
  let era := z / 146097
  let doe := (z - era * 146097).toNat
  let yoe := (doe - doe / 1460 + doe / 36524 - doe / 146096) / 365
  let doy := doe - (365 * yoe + yoe / 4 - yoe / 100)
  let mp := (5 * doy + 2) / 153
  let d := doy - (153 * mp + 2) / 5 + 1
  let m := if mp < 10 then mp + 3 else mp - 9
  ((yoe : Int) + era * 400 + (if m ≤ 2 then 1 else 0), m, d)

/-- `n` in at least `width` digits. -/
def padded (width n : Nat) : String :=
  let s := toString n
  String.ofList (List.replicate (width - s.length) '0') ++ s

/-- The fraction of a second given in nanoseconds: empty, or `.` and 3, 6 or 9 digits. -/
def fraction (nanos : Nat) : String :=
  if nanos = 0 then ""
  else if nanos % 1000000 = 0 then "." ++ padded 3 (nanos / 1000000)
  else if nanos % 1000 = 0 then "." ++ padded 6 (nanos / 1000)
  else "." ++ padded 9 nanos

/-- The time stamp of `nanos` nanoseconds since 1970-01-01T00:00:00Z. -/
def text (nanos : Int) : String :=
  let seconds := nanos / 1000000000
  let part := (nanos - seconds * 1000000000).toNat
  let days := seconds / 86400
  let inDay := (seconds - days * 86400).toNat
  let (y, m, d) := civilOfDays days
  let year := if y < 0 then "-" ++ padded 4 y.natAbs else padded 4 y.toNat
  year ++ "-" ++ padded 2 m ++ "-" ++ padded 2 d ++ "T" ++ padded 2 (inDay / 3600) ++ ":" ++
    padded 2 (inDay / 60 % 60) ++ ":" ++ padded 2 (inDay % 60) ++ fraction part ++ "Z"

example : text (951782400 * 1000000000 + 5000000) = "2000-02-29T00:00:00.005Z" := by
  decide

end Timestamp

end COutline
