import Scriptlet.Datum.Decode

/-!
# Durations

Spans of time in whole nanoseconds. A duration is shown in the largest of the units `s`, `ms`, `µs` and `ns`
in which it is at least one, with the exact decimal fraction and no trailing zeros.
-/

namespace Scriptlet.Budget

/-- A span of time. -/
structure Duration where
  nanos : Nat
  deriving DecidableEq, Inhabited

namespace Duration

/-- Nanoseconds in a second. -/
def perSecond : Nat := 1000000000

/-- The whole seconds. -/
def wholeSeconds (d : Duration) : Nat := d.nanos / perSecond

/-- The nanoseconds that are left over. -/
def restNanos (d : Duration) : Nat := d.nanos % perSecond

/-! ## Text -/

/-- The first decimal places of the fraction `n / unit`, which is below one, without trailing zeros. -/
def fractionDigits (unit : Nat) : (places n : Nat) → List Char
  | 0, _ => []
  | places + 1, n =>
    if n = 0 then []
    else Nat.digitChar (10 * n / unit) :: fractionDigits unit places (10 * n % unit)

/-- A number of nanoseconds in some unit, to so many decimal places. -/
def decimalText (unit places n : Nat) : String :=
  let fraction := fractionDigits unit places (n % unit)
  toString (n / unit) ++
    (if fraction.isEmpty then "" else "." ++ String.ofList fraction)

/-- How a duration is shown. -/
def text (d : Duration) : String :=
  if perSecond ≤ d.nanos then decimalText perSecond 9 d.nanos ++ "s"
  else if 1000000 ≤ d.nanos then decimalText 1000000 6 d.nanos ++ "ms"
  else if 1000 ≤ d.nanos then decimalText 1000 3 d.nanos ++ "µs"
  else decimalText 1 0 d.nanos ++ "ns"

/-! ## Data -/

def toDatum (d : Duration) : Datum :=
  .record [("secs", .nat d.wholeSeconds), ("nanos", .nat d.restNanos)]

/-- One more than the greatest number that is read as nanoseconds, an unsigned 32-bit integer. -/
def nanosBound : Nat := 4294967296

/-- The duration of some seconds and nanoseconds, if its seconds are a counter. -/
def ofParts? (secs nanos : Nat) : Option Duration :=
  let d : Duration := ⟨secs * perSecond + nanos⟩
  if d.wholeSeconds < Datum.countBound then some d else none

/-- Reads a record with exactly the two parts, or a list of them. -/
def ofDatum? : Datum → Option Duration
  | .record r => do
    guard (r.all fun f => f.1 == "secs" || f.1 == "nanos")
    let secs ← Datum.required? r "secs" Datum.count?
    let nanos ← Datum.required? r "nanos" (Datum.natBelow? nanosBound)
    ofParts? secs nanos
  | .list [secs, nanos] => do
    ofParts? (← secs.count?) (← nanos.natBelow? nanosBound)
  | _ => none

end Duration

end Scriptlet.Budget
