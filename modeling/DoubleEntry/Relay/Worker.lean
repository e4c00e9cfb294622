import DoubleEntry.Relay.Backoff
import DoubleEntry.Service.Program

/-!
# The relay of events

A worker claims a batch of events, publishes them one after another until one fails, marks those
that were published and gives up the claims on the rest. It works in a loop: after a batch at once,
after an empty one when it has waited, after a failure with growing delays.

## Main definitions

* `RelayConfig`: the settings of a worker.
* `Relay.runOnce`: one iteration, with its `RunOutcome`.
* `Relay.pause`: how long the worker waits after an iteration.
-/

namespace DoubleEntry

/-- The settings of a worker. -/
structure RelayConfig where
  batchSize : Nat := 50
  /-- Nanoseconds between looks at an empty outbox. -/
  pollInterval : Nat := 200000000
  /-- Nanoseconds after which a claim is stale. -/
  claimTtl : Nat := 120000000000
  workerId : String := "unknown"
deriving DecidableEq

/-- The result of an iteration. -/
inductive RunOutcome where
  | idle
  | published (count : Nat)
  | partly (published failed : Nat)
  | failed (text : String)
deriving DecidableEq

/-- The result as a JSON value. -/
def RunOutcome.toJson : RunOutcome → Json
  | idle => .str "idle"
  | published n => .obj [("published", .nat n)]
  | partly n m => .obj [("partial", .obj [("published", .nat n), ("failed", .nat m)])]
  | failed text => .obj [("failed", .str text)]

instance : ToJson RunOutcome := ⟨RunOutcome.toJson⟩

namespace Relay

/-- The longest time after which a claim can be stale. -/
def maxTtl : Nat := 9223372036854775807000000

/-- The time after which a claim is stale; one too long to reckon with is two minutes. -/
def ttl (c : RelayConfig) : Int := if c.claimTtl ≤ maxTtl then c.claimTtl else 120000000000

/-- Marks what was published, gives up the rest, and tells the result. -/
def settle (c : RelayConfig) (claimed : List OutboxEvent) (count : Nat) (now : Instant) :
    Program RunOutcome :=
  let published := (claimed.take count).map OutboxEvent.id
  let rest := (claimed.drop count).map OutboxEvent.id
  .ask (.store (.settle published now rest c.workerId)) fun settled =>
  match settled with
  | .error e => .done (.failed ("mark published: " ++ e.message))
  | .ok _ => .done (if rest.isEmpty then .published count else .partly count rest.length)

/-- Ends an iteration after so many events were published. -/
def finish (c : RelayConfig) (claimed : List OutboxEvent) (count : Nat) : Program RunOutcome :=
  if count = 0 then settle c claimed count .epoch else .ask .now (settle c claimed count)

/-- Publishes events until one fails; `count` of the claimed ones were published before. -/
def publishAll (c : RelayConfig) (claimed : List OutboxEvent) :
    (count : Nat) → List OutboxEvent → Program RunOutcome
  | count, [] => finish c claimed count
  | count, e :: es =>
    .ask (.publish e.eventType e.aggregateId.toText e.payload) fun sent =>
    match sent with
    | .ok _ => publishAll c claimed (count + 1) es
    | .error _ => finish c claimed count

/-- One iteration of a worker. -/
def runOnce (c : RelayConfig) : Program RunOutcome :=
  .ask .now fun now =>
  .ask (.store (.claim c.batchSize c.workerId now (ttl c))) fun claimed =>
  match claimed with
  | .error e => .done (.failed ("claim: " ++ e.message))
  | .ok [] => .done .idle
  | .ok events => publishAll c events 0 events

/-- How long a worker waits after an iteration, and the delays after that. -/
def pause (c : RelayConfig) (b : Backoff) : RunOutcome → Nat × Backoff
  | .idle => (c.pollInterval, b.reset)
  | .published _ => (0, b.reset)
  | .partly _ _ => b.next
  | .failed _ => b.next

end Relay

end DoubleEntry
