import DoubleEntry.Idempotency
import DoubleEntry.Outbox
import DoubleEntry.Payment
import DoubleEntry.Store.Column

/-!
# Rows of the tables

Each kind of value has a row of columns, which are texts or numbers. Writing a value to its row
loses the places of amounts beyond the sixth and the parts of instants below a microsecond. Reading
a row looks at its columns in their order and stops at the first that cannot be read.

## Main definitions

* `PaymentRow`, `StepRow`, `JournalRow`, `LineRow`, `EventRow`, `RecordRow`: the rows, each with
  `of`, the row of a value, and `read`, the value of a row.
-/

namespace DoubleEntry

/-- The row of a payment. -/
structure PaymentRow where
  id : String
  idempotencyKey : String
  sourceAccountId : String
  destinationAccountId : String
  amount : String
  currency : String
  status : String
  customerId : Option String
  holdId : String
  journalId : Option String
  createdAt : String
  updatedAt : String
deriving DecidableEq

namespace PaymentRow

/-- The row of a payment. -/
def of (p : Payment) : PaymentRow :=
  ⟨p.id.toText, p.idempotencyKey, p.source.toText, p.destination.toText, p.amount.amountText,
    p.currency.code, p.status.name, p.customerId, p.holdId.toText, p.journalId.map Uuid.toText,
    p.createdAt.microText, p.updatedAt.microText⟩

/-- The payment of a row. -/
def read (r : PaymentRow) : Except StoreError Payment := do
  let id ← Column.uuid r.id
  let source ← Column.uuid r.sourceAccountId
  let destination ← Column.uuid r.destinationAccountId
  let amount ← Column.decimal r.amount
  let currency ← Column.domain (Currency.parse r.currency)
  let status ← Column.domain (PaymentStatus.ofName r.status)
  let journal ← Column.optional Column.uuid r.journalId
  let createdAt ← Column.instant r.createdAt
  let updatedAt ← Column.instant r.updatedAt
  return ⟨id, r.idempotencyKey, source, destination, amount, currency, status, r.customerId,
    journal, createdAt, updatedAt⟩

end PaymentRow

/-- The row of a step of a payment. -/
structure StepRow where
  paymentId : String
  step : String
  state : String
  details : String
  attemptedAt : String
deriving DecidableEq

namespace StepRow

/-- The row of a step. -/
def of (s : PaymentStep) : StepRow :=
  ⟨s.paymentId.toText, s.step, s.state, s.details.compact, s.attemptedAt.microText⟩

/-- The step of a row. -/
def read (r : StepRow) : Except StoreError PaymentStep := do
  let payment ← Column.uuid r.paymentId
  let details ← Column.json r.details
  let attemptedAt ← Column.instant r.attemptedAt
  return ⟨payment, r.step, r.state, details, attemptedAt⟩

end StepRow

/-- The row of a journal, without its lines. -/
structure JournalRow where
  id : String
  externalRef : String
  bookedAt : String
  createdBy : String
  status : String
  currency : String
deriving DecidableEq

namespace JournalRow

/-- The row of a journal. -/
def of (j : JournalEntry) : JournalRow :=
  ⟨j.id.toText, j.externalRef, j.bookedAt.microText, j.createdBy, j.status.name, j.currency.code⟩

/-- The journal of a row and lines. -/
def read (r : JournalRow) (lines : List EntryLine) : Except StoreError JournalEntry := do
  let id ← Column.uuid r.id
  let bookedAt ← Column.instant r.bookedAt
  let status ← Column.domain (JournalStatus.ofName r.status)
  let currency ← Column.domain (Currency.parse r.currency)
  return ⟨id, r.externalRef, bookedAt, r.createdBy, status, currency, lines⟩

end JournalRow

/-- The row of a line of a journal. -/
structure LineRow where
  id : String
  journalId : String
  lineNo : Int
  glAccountId : String
  glAccountCode : String
  counterpartyRef : Option String
  debit : String
  credit : String
deriving DecidableEq

namespace LineRow

/-- The row of a line at its place in a journal. -/
def of (journal : JournalId) (lineNo : Nat) (l : EntryLine) : LineRow :=
  ⟨l.id.toText, journal.toText, lineNo, l.glAccount.id.toText, l.glAccount.code,
    l.counterparty.map Uuid.toText, l.debit.amountText, l.credit.amountText⟩

/-- The line of a row. -/
def read (r : LineRow) : Except StoreError EntryLine := do
  let id ← Column.uuid r.id
  let journal ← Column.uuid r.journalId
  let account ← Column.domain (GlAccount.ofCode r.glAccountCode)
  let counterparty ← Column.optional Column.uuid r.counterpartyRef
  let debit ← Column.decimal r.debit
  let credit ← Column.decimal r.credit
  return ⟨id, journal, account, counterparty, debit, credit⟩

end LineRow

/-- The row of an event. -/
structure EventRow where
  id : String
  aggregateType : String
  aggregateId : String
  eventType : String
  payload : String
  published : Int
  publishedAt : Option String
  processing : Int
  processingOwner : Option String
  processingAt : Option String
  createdAt : String
deriving DecidableEq

namespace EventRow

/-- The row of an event. -/
def of (e : OutboxEvent) : EventRow :=
  ⟨e.id.toText, e.aggregateType, e.aggregateId.toText, e.eventType, e.payload.compact,
    Column.ofFlag e.published, e.publishedAt.map Instant.microText, Column.ofFlag e.processing,
    e.processingOwner, e.processingAt.map Instant.microText, e.createdAt.microText⟩

/-- The event of a row. -/
def read (r : EventRow) : Except StoreError OutboxEvent := do
  let id ← Column.uuid r.id
  let aggregate ← Column.uuid r.aggregateId
  let payload ← Column.json r.payload
  let publishedAt ← Column.optional Column.instant r.publishedAt
  let processingAt ← Column.optional Column.instant r.processingAt
  let createdAt ← Column.instant r.createdAt
  return ⟨id, r.aggregateType, aggregate, r.eventType, payload, Column.flag r.published,
    publishedAt, Column.flag r.processing, r.processingOwner, processingAt, createdAt⟩

end EventRow

/-- The row of a record. -/
structure RecordRow where
  key : String
  operation : String
  response : String
  statusCode : Int
  createdAt : String
deriving DecidableEq

namespace RecordRow

/-- The row of a record. -/
def of (r : IdempotencyRecord) : RecordRow :=
  ⟨r.key, r.operation, r.response, r.statusCode, r.createdAt.microText⟩

/-- The record of a row. -/
def read (r : RecordRow) : Except StoreError IdempotencyRecord := do
  let code ← Column.statusCode r.statusCode
  let createdAt ← Column.instant r.createdAt
  return ⟨r.key, r.operation, r.response, code, createdAt⟩

end RecordRow

end DoubleEntry
