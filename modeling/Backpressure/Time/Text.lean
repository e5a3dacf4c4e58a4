import Backpressure.Time

/-!
# The text of a duration

A duration is written in the largest of seconds, milliseconds, microseconds and nanoseconds of
which it holds at least one, followed by the fraction of that unit without trailing zeros.
-/

namespace Backpressure.Duration

/-- A number below a power of ten, written with leading zeros to the full width and then without
its trailing zeros. -/
def fractionDigits (value width : Nat) : String :=
  let digits := String.ofList (Nat.toDigits 10 value)
  let padded := "".pushn '0' (width - digits.length) ++ digits
  String.ofList (padded.toList.reverse.dropWhile (· == '0')).reverse

/-- A whole part and a remainder of `10 ^ width` parts, in a unit. -/
def inUnit (whole rest width : Nat) (unit : String) : String :=
  if rest = 0 then toString whole ++ unit
  else toString whole ++ "." ++ fractionDigits rest width ++ unit

/-- The text of a duration, such as `1.5s`, `20µs` or `0ns`. -/
def text (d : Duration) : String :=
  if 0 < d.seconds then inUnit d.seconds d.subsecond 9 "s"
  else if 1000000 ≤ d.nanos then inUnit (d.nanos / 1000000) (d.nanos % 1000000) 6 "ms"
  else if 1000 ≤ d.nanos then inUnit (d.nanos / 1000) (d.nanos % 1000) 3 "µs"
  else inUnit d.nanos 0 0 "ns"

end Backpressure.Duration
