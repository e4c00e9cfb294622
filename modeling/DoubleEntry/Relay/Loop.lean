import DoubleEntry.Relay.Worker

/-!
# The loop of a worker

Before each iteration a worker looks whether it shall stop. After it, it rests until its delay has
passed or the signal changes; if nobody is left who could signal, it stops.

## Main definitions

* `Loop`: where a worker stands in its loop.
* `Loop.Event`, `Loop.step`: what happens to it, and where it stands then.
-/

namespace DoubleEntry

/-- Where a worker stands in its loop, with the delays to come. -/
inductive Loop where
  /-- About to look whether it shall stop. -/
  | ready (delays : Backoff)
  /-- In an iteration. -/
  | working (delays : Backoff)
  /-- Between two iterations, for so many nanoseconds. -/
  | resting (delays : Backoff) (delay : Nat)
  | stopped
deriving DecidableEq

namespace Loop

/-- A worker that has done nothing yet. -/
def start : Loop := .ready .standard

/-- What happens to a worker. -/
inductive Event where
  /-- It looks at the signal. -/
  | look (stop : Bool)
  /-- An iteration ends. -/
  | finish (o : RunOutcome)
  /-- The delay has passed. -/
  | wake
  /-- The signal changes. -/
  | signal
  /-- Nobody is left who could signal. -/
  | abandon
deriving DecidableEq

/-- Where the worker stands after an event; one that does not concern it changes nothing. -/
def step (c : RelayConfig) : Loop → Event → Loop
  | .ready _, .look true => .stopped
  | .ready b, .look false => .working b
  | .working b, .finish o => .resting (Relay.pause c b o).2 (Relay.pause c b o).1
  | .resting b _, .wake => .ready b
  | .resting b _, .signal => .ready b
  | .resting _ _, .abandon => .stopped
  | l, _ => l

end Loop

end DoubleEntry
