import DoubleEntry.Journal.Json

/-!
# Payments

A payment moves an amount from one customer to another. Its identifier is also that of the hold
reserved for it. The steps that it took are kept beside it.

## Main definitions

* `PaymentStatus`, `Payment`, `PaymentStep`: a payment, where it stands and what it did.
-/

namespace DoubleEntry

/-- Where a payment stands. -/
inductive PaymentStatus where
  | pending
  | processing
  | posted
  | failed
deriving DecidableEq

namespace PaymentStatus

/-- The name of a status. -/
def name : PaymentStatus → String
  | pending => "pending"
  | processing => "processing"
  | posted => "posted"
  | failed => "failed"

/-- Names and statuses. -/
def names : List (String × PaymentStatus) :=
  [pending, processing, posted, failed].map fun s => (s.name, s)

/-- The status of a name. -/
def ofName (raw : String) : Except DomainError PaymentStatus :=
  match names.lookup raw with
  | some s => .ok s
  | none => .error (.validation (.unknownPaymentStatus raw))

/-- The status as a JSON value. -/
def toJson (s : PaymentStatus) : Json := .str s.name

/-- Reads a status from its name. -/
def decoder : Decoder PaymentStatus := Decoder.variant names

end PaymentStatus

instance : ToJson PaymentStatus := ⟨PaymentStatus.toJson⟩
instance : FromJson PaymentStatus := ⟨PaymentStatus.decoder⟩

/-- A payment. -/
structure Payment where
  id : PaymentId
  idempotencyKey : String
  source : AccountId
  destination : AccountId
  amount : Decimal
  currency : Currency
  status : PaymentStatus
  customerId : Option String
  journalId : Option JournalId
  createdAt : Instant
  updatedAt : Instant
deriving DecidableEq

namespace Payment

/-- The hold of a payment has the payment's identifier. -/
def holdId (p : Payment) : PaymentId := p.id

/-- The payment as a JSON value. -/
def toJson (p : Payment) : Json := .obj [
  ("id", p.id.toJson),
  ("idempotency_key", .str p.idempotencyKey),
  ("source_account", p.source.toJson),
  ("destination_account", p.destination.toJson),
  ("amount", p.amount.toJson),
  ("currency", p.currency.toJson),
  ("status", p.status.toJson),
  ("customer_id", Json.option Json.str p.customerId),
  ("journal_id", Json.option Uuid.toJson p.journalId),
  ("created_at", p.createdAt.toJson),
  ("updated_at", p.updatedAt.toJson)]

/-- Reads a payment. -/
def decoder : Decoder Payment := Fields.decoder "Payment" <|
  Payment.mk <$> .required "id" Uuid.decoder <*> .required "idempotency_key" Decoder.text
    <*> .required "source_account" Uuid.decoder <*> .required "destination_account" Uuid.decoder
    <*> .required "amount" Decoder.decimal <*> .required "currency" Currency.decoder
    <*> .required "status" PaymentStatus.decoder <*> .optional "customer_id" Decoder.text
    <*> .optional "journal_id" Uuid.decoder <*> .required "created_at" Instant.decoder
    <*> .required "updated_at" Instant.decoder

end Payment

instance : ToJson Payment := ⟨Payment.toJson⟩
instance : FromJson Payment := ⟨Payment.decoder⟩

/-- A step that a payment took. -/
structure PaymentStep where
  paymentId : PaymentId
  step : String
  state : String
  details : Json
  attemptedAt : Instant

namespace PaymentStep

/-- The name of the step that reserves the hold. -/
def reserveHold : String := "reserve_hold"

/-- The name of the step that posts the journal. -/
def postLedger : String := "post_ledger"

/-- A step that succeeded. -/
def succeeded (payment : PaymentId) (step : String) (details : Json) (at_ : Instant) :
    PaymentStep :=
  ⟨payment, step, "ok", details, at_⟩

/-- The step as a JSON value. -/
def toJson (s : PaymentStep) : Json := .obj [
  ("payment_id", s.paymentId.toJson),
  ("step", .str s.step),
  ("state", .str s.state),
  ("details", s.details),
  ("attempted_at", s.attemptedAt.toJson)]

/-- Reads a step. -/
def decoder : Decoder PaymentStep := Fields.decoder "PaymentStep" <|
  PaymentStep.mk <$> .required "payment_id" Uuid.decoder <*> .required "step" Decoder.text
    <*> .required "state" Decoder.text <*> .required "details" Decoder.json
    <*> .required "attempted_at" Instant.decoder

end PaymentStep

instance : ToJson PaymentStep := ⟨PaymentStep.toJson⟩
instance : FromJson PaymentStep := ⟨PaymentStep.decoder⟩

end DoubleEntry
