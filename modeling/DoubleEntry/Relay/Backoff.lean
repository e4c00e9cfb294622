/-!
# Growing delays

After a failure a worker waits; after each further one it waits twice as long, up to a bound. A
success takes it back to the first delay. Delays are in nanoseconds.

## Main definitions

* `Backoff`: the delays. `Backoff.next`: a delay and what comes after it.
* `Backoff.reset`: back to the first delay.
-/

namespace DoubleEntry

/-- A delay that grows. -/
structure Backoff where
  first : Nat
  most : Nat
  current : Nat
deriving DecidableEq

namespace Backoff

/-- Delays from the first one up to the bound; the first one may be above it. -/
def start (first most : Nat) : Backoff := ⟨first, most, first⟩

/-- A fifth of a second, up to three seconds. -/
def standard : Backoff := start 200000000 3000000000

/-- The next delay, and the delays after it. -/
def next (b : Backoff) : Nat × Backoff :=
  (b.current, { b with current := min (b.current * 2) b.most })

/-- The delays from the first one on. -/
def reset (b : Backoff) : Backoff := { b with current := b.first }

end Backoff

end DoubleEntry
