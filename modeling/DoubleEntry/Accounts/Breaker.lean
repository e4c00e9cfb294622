import DoubleEntry.Duration

/-!
# Circuit breakers

A breaker guards calls to a service that may be down. It starts closed and lets every call through.
After so many failures in a row it opens and refuses all calls. When it has cooled down it is half
open and admits a few probes: if enough calls succeed it closes, if one fails it opens again. The
count of failures starts anew at regular intervals while the breaker is closed. Times are
nanoseconds on a clock that never runs backwards.

## Main definitions

* `BreakerConfig`, `Breaker`: the settings and the state.
* `Breaker.refresh`: what the passing of time does.
* `Breaker.acquire`: admits or refuses a call. `Breaker.succeed`, `Breaker.fail`, `Breaker.abandon`:
  what the end of a call does.
* `Breaker.Event`, `Breaker.step`: all of these as steps of one machine.
-/

namespace DoubleEntry

/-- The settings of a breaker. -/
structure BreakerConfig where
  /-- Failures in a row that open it. -/
  failureThreshold : Nat := 3
  /-- How long it stays open. -/
  cooldown : Nat := 10000000000
  /-- Probes admitted while it is half open, and successes that close it. -/
  maxProbes : Nat := 5
  /-- How often the count of failures starts anew. -/
  interval : Nat := 30000000000
deriving DecidableEq

/-- Whether a breaker lets calls through. -/
inductive Circuit where
  | closed
  | opened
  | halfOpen
deriving DecidableEq

/-- The name of a circuit's state. -/
def Circuit.name : Circuit → String
  | closed => "Closed"
  | opened => "Open"
  | halfOpen => "HalfOpen"

/-- The state of a breaker. -/
structure Breaker where
  circuit : Circuit
  failures : Nat
  windowStart : Nat
  openedAt : Option Nat
  admitted : Nat
  successes : Nat
  /-- How often the breaker has opened. -/
  generation : Nat
deriving DecidableEq

/-- An admitted call: the generation of a probe, none for a call through a closed breaker. -/
abbrev Permit := Option Nat

namespace Breaker

/-- A closed breaker. -/
def start (now : Nat) : Breaker := ⟨.closed, 0, now, none, 0, 0, 0⟩

/-- The breaker as it is at a time: half open if it has cooled down, and with no failures counted if
the interval has passed. -/
def refresh (c : BreakerConfig) (now : Nat) (b : Breaker) : Breaker :=
  match b.circuit with
  | .opened =>
    if b.openedAt.all fun t => c.cooldown ≤ now - t then
      { b with circuit := .halfOpen, admitted := 0, successes := 0 }
    else b
  | .closed =>
    if c.interval ≤ now - b.windowStart then { b with windowStart := now, failures := 0 } else b
  | .halfOpen => b

/-- Admits a call, or refuses it; the state changes either way. -/
def acquire (c : BreakerConfig) (now : Nat) (b : Breaker) : Option Permit × Breaker :=
  let b := b.refresh c now
  match b.circuit with
  | .closed => (some none, b)
  | .opened => (none, b)
  | .halfOpen =>
    if c.maxProbes ≤ b.admitted then (none, b)
    else (some (some b.generation), { b with admitted := b.admitted + 1 })

/-- A call that is given up frees the place of its probe while that half-open time lasts. -/
def abandon (p : Permit) (b : Breaker) : Breaker :=
  match p with
  | none => b
  | some g =>
    if b.circuit = .halfOpen ∧ b.generation = g then { b with admitted := b.admitted - 1 } else b

/-- The breaker opens. -/
def trip (now : Nat) (b : Breaker) : Breaker :=
  { b with circuit := .opened, generation := b.generation + 1, openedAt := some now, admitted := 0,
           successes := 0 }

/-- A call succeeds. -/
def succeed (c : BreakerConfig) (now : Nat) (b : Breaker) : Breaker :=
  match b.circuit with
  | .closed => { b with failures := 0 }
  | .halfOpen =>
    let b := { b with successes := b.successes + 1 }
    if c.maxProbes ≤ b.successes then
      { b with circuit := .closed, failures := 0, windowStart := now, openedAt := none }
    else b
  | .opened => b

/-- A call fails. -/
def fail (c : BreakerConfig) (now : Nat) (b : Breaker) : Breaker :=
  match b.circuit with
  | .closed =>
    let b := { b with failures := b.failures + 1 }
    if c.failureThreshold ≤ b.failures then b.trip now else b
  | .halfOpen => b.trip now
  | .opened => b

/-- A call ends. -/
def finish (c : BreakerConfig) (now : Nat) (ok : Bool) (b : Breaker) : Breaker :=
  if ok then b.succeed c now else b.fail c now

/-- What happens to a breaker. -/
inductive Event where
  /-- Someone looks at it. -/
  | observe
  /-- A call asks to be admitted. -/
  | call
  /-- An admitted call ends. -/
  | finish (p : Permit) (ok : Bool)
  /-- An admitted call is given up. -/
  | abandon (p : Permit)
deriving DecidableEq

/-- A step of the breaker at a time. -/
def step (c : BreakerConfig) (now : Nat) (e : Event) (b : Breaker) : Breaker :=
  match e with
  | .observe => b.refresh c now
  | .call => (b.acquire c now).2
  | .finish _ ok => b.finish c now ok
  | .abandon p => b.abandon p

end Breaker

end DoubleEntry
