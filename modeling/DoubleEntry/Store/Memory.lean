import DoubleEntry.Store.Call

/-!
# The store in memory

The store in memory keeps the values themselves, in the order of their insertion.

## Main definitions

* `Memory`: the store. `Memory.insert`, `Memory.claim`, `Memory.markPublished`,
  `Memory.releaseClaims`: the calls that change it.
-/

namespace DoubleEntry

/-- A store that keeps values. -/
structure Memory where
  payments : List Payment
  steps : List PaymentStep
  journals : List JournalEntry
  outbox : List OutboxEvent
  records : List IdempotencyRecord

namespace Memory

/-- A store with nothing in it. -/
def empty : Memory := ⟨[], [], [], [], []⟩

/-- A refusal because something is there already. -/
def conflict {α : Type} (text : String) : Outcome α := Halt.refuse (.conflict text)

/-- Inserts a payment; neither its identifier nor its key may be there already. -/
def insertPayment (p : Payment) (m : Memory) : Outcome Memory :=
  if m.payments.any fun q => q.id = p.id then conflict ("payment " ++ p.id.toText)
  else if m.payments.any fun q => q.idempotencyKey = p.idempotencyKey then
    conflict ("idempotency key " ++ p.idempotencyKey)
  else .ok { m with payments := m.payments ++ [p] }

/-- Inserts a step of a payment that is there. -/
def insertStep (s : PaymentStep) (m : Memory) : Outcome Memory :=
  if m.payments.any fun p => p.id = s.paymentId then .ok { m with steps := m.steps ++ [s] }
  else Halt.refuse .notFound

/-- Inserts a balanced journal. -/
def insertJournal (j : JournalEntry) (m : Memory) : Outcome Memory := do
  Halt.within .domain (ensureBalanced j.lines)
  if m.journals.any fun k => k.id = j.id then conflict ("journal " ++ j.id.toText)
  else .ok { m with journals := m.journals ++ [j] }

/-- Inserts an event. -/
def insertEvent (e : OutboxEvent) (m : Memory) : Outcome Memory :=
  if m.outbox.any fun f => f.id = e.id then conflict ("outbox event " ++ e.id.toText)
  else .ok { m with outbox := m.outbox ++ [e] }

/-- Inserts a record. -/
def insertRecord (r : IdempotencyRecord) (m : Memory) : Outcome Memory :=
  if m.records.any fun q => q.key = r.key then conflict ("idempotency key " ++ r.key)
  else .ok { m with records := m.records ++ [r] }

/-- Inserts a row. -/
def insert : Row → Memory → Outcome Memory
  | .payment p, m => m.insertPayment p
  | .step s, m => m.insertStep s
  | .journal j, m => m.insertJournal j
  | .event e, m => m.insertEvent e
  | .record r, m => m.insertRecord r

/-- The steps of a payment in the order of their times. -/
def stepsOf (id : PaymentId) (m : Memory) : List PaymentStep :=
  (m.steps.filter fun s => s.paymentId = id).mergeSort fun a b =>
    decide (a.attemptedAt ≤ b.attemptedAt)

/-- The later journal goes first; of two at one time, the one with the larger identifier. -/
def laterFirst (a b : JournalEntry) : Bool :=
  decide (b.bookedAt < a.bookedAt) || (a.bookedAt == b.bookedAt && decide (b.id.bits ≤ a.id.bits))

/-- The journal names the account and was booked within the span of time. -/
def concerns (l : Listing) (j : JournalEntry) : Bool :=
  decide (l.start ≤ j.bookedAt) && decide (j.bookedAt ≤ l.stop) &&
    j.lines.any fun line => line.counterparty = some l.account

/-- How many entries stand before a page. -/
def pageStart (page size : Nat) : Nat := (max page 1 - 1) * size

/-- A page of the journals that name an account, the latest first. -/
def activity (l : Listing) (m : Memory) : List JournalEntry :=
  let found := (m.journals.filter (concerns l)).mergeSort laterFirst
  (found.drop (pageStart l.page l.size)).take l.size

/-- The events that are free, or a crash where the rule of claims has no answer. -/
def claimables (now : Instant) (ttl : Int) : List OutboxEvent → Outcome (List OutboxEvent)
  | [] => .ok []
  | e :: es => do
    let free ← Halt.orCrash (e.isClaimable now ttl)
    let rest ← claimables now ttl es
    return if free then e :: rest else rest

/-- The event with the claim of a worker. -/
def claimed (owner : String) (now : Instant) (e : OutboxEvent) : OutboxEvent :=
  { e with processing := true, processingOwner := some owner, processingAt := some now }

/-- The events of a batch: the oldest ones that are free. -/
def batch (limit : Nat) (now : Instant) (ttl : Int) (m : Memory) : Outcome (List OutboxEvent) := do
  let free ← claimables now ttl m.outbox
  return (free.mergeSort fun a b => decide (a.createdAt ≤ b.createdAt)).take limit

/-- Changes the events of some identifiers. -/
def update (ids : List EventId) (f : OutboxEvent → OutboxEvent) (m : Memory) : Memory :=
  { m with outbox := m.outbox.map fun e => if ids.contains e.id then f e else e }

/-- Claims the oldest free events for a worker. -/
def claim (limit : Nat) (owner : String) (now : Instant) (ttl : Int) (m : Memory) :
    Outcome (List OutboxEvent × Memory) := do
  let events ← m.batch limit now ttl
  return (events.map (claimed owner now), m.update (events.map OutboxEvent.id) (claimed owner now))

/-- The event without a claim. -/
def unclaimed (e : OutboxEvent) : OutboxEvent :=
  { e with processing := false, processingOwner := none, processingAt := none }

/-- The event as published. -/
def publishedAt (now : Instant) (e : OutboxEvent) : OutboxEvent :=
  { unclaimed e with published := true, publishedAt := some now }

/-- Marks events as published, whoever has claimed them. -/
def markPublished (ids : List EventId) (now : Instant) (m : Memory) : Nat × Memory :=
  ((m.outbox.filter fun e => ids.contains e.id).length, m.update ids (publishedAt now))

/-- The worker has a claim on the event. -/
def isHeldBy (owner : String) (e : OutboxEvent) : Bool :=
  !e.published && e.processingOwner = some owner

/-- Gives up the claims of a worker. -/
def releaseClaims (ids : List EventId) (owner : String) (m : Memory) : Nat × Memory :=
  ((m.outbox.filter fun e => ids.contains e.id && isHeldBy owner e).length,
    m.update ids fun e => if isHeldBy owner e then unclaimed e else e)

/-- Carries out a call that may change the store. -/
def changing {α : Type} (m : Memory) : Outcome (α × Memory) → Outcome α × Memory
  | .ok (a, m) => (.ok a, m)
  | .error h => (.error h, m)

/-- Carries out a call. -/
def call : (c : Call) → Memory → Outcome c.Answer × Memory
  | .insert row, m => m.changing ((m.insert row).map fun m => ((), m))
  | .payment id, m => (.ok (m.payments.find? fun p => p.id = id), m)
  | .paymentOfKey key, m => (.ok (m.payments.find? fun p => p.idempotencyKey = key), m)
  | .steps id, m => (.ok (m.stepsOf id), m)
  | .journal id, m => (.ok (m.journals.find? fun j => j.id = id), m)
  | .activity l, m => (.ok (m.activity l), m)
  | .event id, m => (.ok (m.outbox.find? fun e => e.id = id), m)
  | .claim limit owner now ttl, m => m.changing (m.claim limit owner now ttl)
  | .markPublished ids now, m => (.ok (m.markPublished ids now).1, (m.markPublished ids now).2)
  | .releaseClaims ids owner, m =>
    (.ok (m.releaseClaims ids owner).1, (m.releaseClaims ids owner).2)
  | .record key, m => (.ok (m.records.find? fun r => r.key = key), m)

instance : Backend Memory := ⟨call⟩

end Memory

end DoubleEntry
