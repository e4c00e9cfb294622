import DoubleEntry.Proofs.Job
import DoubleEntry.Proofs.Interleaving

/-!
# Sessions

Jobs are carried out over one store, one after another.  What lies outside of the store answers by
what has happened outside so far, with readings of the clock and fresh identifiers that are given
beforehand; a job that finds none left stops there, like one that crashes.

Two sessions over different stores can be compared: if the jobs end alike and the same has happened
outside, nobody can tell the stores apart.

## Main definitions

* `Outside`: the accounts service, the audit and the publisher.
* `Scene`: what has happened outside, and the readings and identifiers to come.
* `Session.world`, `Session.run`: how requests are answered, and what jobs end with.
-/

namespace DoubleEntry

/-- What answers the requests that do not go to the store, by what has happened outside so far, the
latest first; no answer is a crash. -/
structure Outside where
  accounts : List Exchange → (c : AccountsCall) → Option (Except GatewayError c.Answer)
  audit : List Exchange → AuditRecord → Option (Except AuditError Unit)
  publisher : List Exchange → (topic key : String) → Json → Option (Except PublishError Unit)

/-- What grants everything. -/
def Outside.granting : Outside where
  accounts _ := (Surroundings.granting .epoch (.ofNat 0)).accounts
  audit _ _ := some (.ok ())
  publisher _ _ _ _ := some (.ok ())

/-- What has happened outside of the store, and what is given beforehand. -/
structure Scene where
  /-- The exchanges, the latest first. -/
  log : List Exchange
  /-- The readings of the clock to come. -/
  clock : List Instant
  /-- The fresh identifiers to come. -/
  ids : List Uuid

namespace Scene

/-- The scene after an exchange. -/
def note (sc : Scene) (r : Request) (a : Option r.Answer) : Scene :=
  { sc with log := ⟨r, a⟩ :: sc.log }

/-- The next reading of the clock. -/
def read (sc : Scene) : Option Instant × Scene :=
  match sc.clock with
  | [] => (none, sc.note .now none)
  | t :: ts => (some t, { sc.note .now (some t) with clock := ts })

/-- The next fresh identifier. -/
def draw (sc : Scene) : Option Uuid × Scene :=
  match sc.ids with
  | [] => (none, sc.note .freshId none)
  | u :: us => (some u, { sc.note .freshId (some u) with ids := us })

end Scene

namespace Session

/-- A store with what is outside of it. -/
abbrev State := Store × Scene

/-- How a request is answered. -/
def world (o : Outside) : (r : Request) → State → Option r.Answer × State
  | .store q, (s, sc) => (Surroundings.ofOutcome (s.serve q).1, ((s.serve q).2, sc))
  | .accounts c, (s, sc) =>
    (o.accounts sc.log c, (s, sc.note (.accounts c) (o.accounts sc.log c)))
  | .audit r, (s, sc) => (o.audit sc.log r, (s, sc.note (.audit r) (o.audit sc.log r)))
  | .publish topic key payload, (s, sc) =>
    (o.publisher sc.log topic key payload,
      (s, sc.note (.publish topic key payload) (o.publisher sc.log topic key payload)))
  | .now, (s, sc) => (sc.read.1, (s, sc.read.2))
  | .freshId, (s, sc) => (sc.draw.1, (s, sc.draw.2))

/-- What jobs end with that are carried out one after another, and the state after them; one that
crashes ends with nothing. -/
def run (o : Outside) : List Job → State → List (Option Job.Reply) × State
  | [], x => ([], x)
  | j :: js, x =>
    let (reply, x) := j.program.run (world o) x
    let (replies, x) := run o js x
    (reply :: replies, x)

/-- What jobs end with over a store, and all that has happened outside of it. -/
def outcome (o : Outside) (jobs : List Job) (clock : List Instant) (ids : List Uuid) (s : Store) :
    List (Option Job.Reply) × List Exchange :=
  ((run o jobs (s, ⟨[], clock, ids⟩)).1, (run o jobs (s, ⟨[], clock, ids⟩)).2.2.log)

end Session

end DoubleEntry
