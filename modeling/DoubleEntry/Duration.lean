import DoubleEntry.Decimal.Text

/-!
# Texts of spans of time

A span of time is a number of nanoseconds. A message shows it in the largest unit that is not above
it, with the fraction that is left.

## Main definitions

* `spanText`: the shown form.
-/

namespace DoubleEntry

/-- A whole part and a fraction of `width` digits without its trailing noughts. -/
def withFraction (whole fraction width : Nat) : String :=
  let ds := ((paddedDigits width fraction).reverse.dropWhile (· == '0')).reverse
  toString whole ++ (if ds.isEmpty then "" else "." ++ String.ofList ds)

/-- A span of nanoseconds in seconds, milliseconds, microseconds or nanoseconds. -/
def spanText (nanos : Nat) : String :=
  if 1000000000 ≤ nanos then withFraction (nanos / 1000000000) (nanos % 1000000000) 9 ++ "s"
  else if 1000000 ≤ nanos then withFraction (nanos / 1000000) (nanos % 1000000) 6 ++ "ms"
  else if 1000 ≤ nanos then withFraction (nanos / 1000) (nanos % 1000) 3 ++ "µs"
  else toString nanos ++ "ns"

end DoubleEntry
