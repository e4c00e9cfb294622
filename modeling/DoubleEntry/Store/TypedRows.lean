import DoubleEntry.Idempotency
import DoubleEntry.Outbox
import DoubleEntry.Payment
import DoubleEntry.Store.Column

/-!
# Rows with typed columns

A database may have columns for identifiers, decimals, instants, truth values and JSON values. What
is left to read of its rows are names and codes: currencies, statuses, accounts of the chart, the
identifiers of customers, and status codes. Steps and events have nothing left to read.

## Main definitions

* `TypedPayment`, `TypedJournal`, `TypedLine`, `TypedRecord`: the rows, each with `read`, the value
  of a row, and `decoder`, its columns by their names.
* `TypedStep.decoder`, `TypedEvent.decoder`: steps and events by the names of their columns.
-/

namespace DoubleEntry

/-- The row of a payment. -/
structure TypedPayment where
  id : PaymentId
  idempotencyKey : String
  source : AccountId
  destination : AccountId
  amount : Decimal
  currency : String
  status : String
  customerId : Option String
  journalId : Option JournalId
  createdAt : Instant
  updatedAt : Instant
deriving DecidableEq

namespace TypedPayment

/-- The payment of a row. -/
def read (r : TypedPayment) : Except StoreError Payment := do
  let currency ← Column.domain (Currency.parse r.currency)
  let status ← Column.domain (PaymentStatus.ofName r.status)
  return ⟨r.id, r.idempotencyKey, r.source, r.destination, r.amount, currency, status, r.customerId,
    r.journalId, r.createdAt, r.updatedAt⟩

/-- The columns of a payment. -/
def decoder : Decoder TypedPayment := Fields.decoder "payments" <|
  TypedPayment.mk <$> .required "id" Uuid.decoder <*> .required "idempotency_key" Decoder.text
    <*> .required "source_account_id" Uuid.decoder
    <*> .required "destination_account_id" Uuid.decoder <*> .required "amount" Decoder.decimal
    <*> .required "currency" Decoder.text <*> .required "status" Decoder.text
    <*> .optional "customer_id" Decoder.text <*> .optional "journal_id" Uuid.decoder
    <*> .required "created_at" Instant.decoder <*> .required "updated_at" Instant.decoder

end TypedPayment

instance : FromJson TypedPayment := ⟨TypedPayment.decoder⟩

/-- The columns of a step. -/
def TypedStep.decoder : Decoder PaymentStep := Fields.decoder "payment_steps" <|
  PaymentStep.mk <$> .required "payment_id" Uuid.decoder <*> .required "step" Decoder.text
    <*> .required "state" Decoder.text <*> .required "details_json" Decoder.json
    <*> .required "attempted_at" Instant.decoder

/-- The row of a line of a journal. -/
structure TypedLine where
  id : Uuid
  journalId : JournalId
  glAccountCode : String
  counterpartyRef : Option String
  debit : Decimal
  credit : Decimal
deriving DecidableEq

namespace TypedLine

/-- Reads the identifier of a customer. -/
def counterparty (raw : String) : Except StoreError AccountId :=
  match Uuid.read raw with
  | .ok u => .ok u
  | .error e => Column.bad ("bad counterparty " ++ raw ++ ": " ++ e.message)

/-- The line of a row. -/
def read (r : TypedLine) : Except StoreError EntryLine := do
  let account ← Column.domain (GlAccount.ofCode r.glAccountCode)
  let other ← Column.optional counterparty r.counterpartyRef
  return ⟨r.id, r.journalId, account, other, r.debit, r.credit⟩

/-- The columns of a line. -/
def decoder : Decoder TypedLine := Fields.decoder "entry_lines" <|
  TypedLine.mk <$> .required "id" Uuid.decoder <*> .required "journal_id" Uuid.decoder
    <*> .required "gl_account_code" Decoder.text <*> .optional "counterparty_ref" Decoder.text
    <*> .required "debit" Decoder.decimal <*> .required "credit" Decoder.decimal

end TypedLine

instance : FromJson TypedLine := ⟨TypedLine.decoder⟩

/-- The row of a journal, without its lines. -/
structure TypedJournal where
  id : JournalId
  externalRef : String
  bookedAt : Instant
  createdBy : String
  status : String
  currency : String
deriving DecidableEq

namespace TypedJournal

/-- The journal of a row and lines. -/
def read (r : TypedJournal) (lines : List EntryLine) : Except StoreError JournalEntry := do
  let status ← Column.domain (JournalStatus.ofName r.status)
  let currency ← Column.domain (Currency.parse r.currency)
  return ⟨r.id, r.externalRef, r.bookedAt, r.createdBy, status, currency, lines⟩

/-- The columns of a journal. -/
def decoder : Decoder TypedJournal := Fields.decoder "journal_entries" <|
  TypedJournal.mk <$> .required "id" Uuid.decoder <*> .required "external_ref" Decoder.text
    <*> .required "booked_at" Instant.decoder <*> .required "created_by" Decoder.text
    <*> .required "status" Decoder.text <*> .required "currency" Decoder.text

end TypedJournal

instance : FromJson TypedJournal := ⟨TypedJournal.decoder⟩

/-- The columns of an event. -/
def TypedEvent.decoder : Decoder OutboxEvent := Fields.decoder "outbox_events" <|
  OutboxEvent.mk <$> .required "id" Uuid.decoder <*> .required "aggregate_type" Decoder.text
    <*> .required "aggregate_id" Uuid.decoder <*> .required "event_type" Decoder.text
    <*> .required "payload_json" Decoder.json <*> .required "published" Decoder.bool
    <*> .optional "published_at" Instant.decoder <*> .required "processing" Decoder.bool
    <*> .optional "processing_owner" Decoder.text <*> .optional "processing_at" Instant.decoder
    <*> .required "created_at" Instant.decoder

/-- The row of a record. -/
structure TypedRecord where
  key : String
  operation : String
  response : String
  statusCode : Int
  createdAt : Instant
deriving DecidableEq

namespace TypedRecord

/-- The record of a row. -/
def read (r : TypedRecord) : Except StoreError IdempotencyRecord := do
  return ⟨r.key, r.operation, r.response, ← Column.statusCode r.statusCode, r.createdAt⟩

/-- The columns of a record. -/
def decoder : Decoder TypedRecord := Fields.decoder "idempotency_records" <|
  TypedRecord.mk <$> .required "key" Decoder.text <*> .required "operation" Decoder.text
    <*> .required "response_json" Decoder.text <*> .required "status_code" Decoder.int32
    <*> .required "created_at" Instant.decoder

end TypedRecord

instance : FromJson TypedRecord := ⟨TypedRecord.decoder⟩

end DoubleEntry
