import DoubleEntry.Api.Response
import DoubleEntry.Service.Program

/-!
# The payment service

A payment is posted in steps. A key that was answered before is answered again. Otherwise the
accounts service is asked for leave and for a hold; then the payment, its journal, its steps, its
event and the record of the answer are written as one. If the write fails the hold is released, and
if it failed because another request with the key came first, that one's answer is given.

## Main definitions

* `Payments.post`: posting a payment. `Payments.find`: showing one.
* `PaymentCommand.hold`, `PaymentCommand.unhold`: the two requests about the hold.
* `PaymentCommand.rows`: what is written.
-/

namespace DoubleEntry

namespace PaymentCommand

/-- The request to reserve the hold of a payment. -/
def hold (c : PaymentCommand) (payment : PaymentId) : HoldRequest :=
  ⟨c.source, c.currency, c.amount, payment, c.key ++ ":reserve_hold", some "payment"⟩

/-- The request to release the hold of a payment that could not be written. -/
def unhold (c : PaymentCommand) (payment : PaymentId) : HoldRequest :=
  ⟨c.source, c.currency, c.amount, payment, c.key ++ ":release_hold", some "payment-compensation"⟩

/-- The payment as it is stored. -/
def payment (c : PaymentCommand) (id : PaymentId) (journal : JournalId) (now : Instant) : Payment :=
  ⟨id, c.key, c.source, c.destination, c.amount, c.currency, .posted, c.customerId, some journal,
    now, now⟩

/-- The steps of the payment. -/
def steps (id : PaymentId) (journal : JournalId) (now : Instant) : List PaymentStep :=
  [.succeeded id PaymentStep.reserveHold (.record [("hold_id", id.toJson)]) now,
    .succeeded id PaymentStep.postLedger
      (.record [("journal_id", journal.toJson), ("hold_id", id.toJson)]) now]

/-- What the event of the payment says. -/
def payload (c : PaymentCommand) (id : PaymentId) (journal : JournalId) (now : Instant) : Json :=
  .record [
    ("payment_id", id.toJson),
    ("source_account_id", c.source.toJson),
    ("destination_account_id", c.destination.toJson),
    ("currency", c.currency.toJson),
    ("amount", .str c.amount.amountText),
    ("hold_id", id.toJson),
    ("journal_id", journal.toJson),
    ("occurred_at", .str now.nanoText)]

/-- The answer to the payment. -/
def answer (id : PaymentId) : PaymentPosted := ⟨id, .posted⟩

/-- What is written for a payment with its journal. -/
def rows (c : PaymentCommand) (id : PaymentId) (journal : JournalEntry) (event : EventId)
    (now : Instant) : List Row :=
  .payment (c.payment id journal.id now) :: .journal journal ::
    (steps id journal.id now).map .step ++ [
    .event (.pending event "payment" id OutboxEvent.paymentPosted (c.payload id journal.id now)
      now),
    .record (.of c.key IdempotencyRecord.postPayment (answer id).toJson now)]

end PaymentCommand

namespace Payments

/-- The answer that a record keeps, for a request of this operation. -/
def replayed {α : Type} (operation : String) (dec : Decoder α) :
    Except StoreError (Option IdempotencyRecord) → Except ServiceError (Option α)
  | .error e => .error e.toService
  | .ok none => .ok none
  | .ok (some r) =>
    match r.replay operation dec with
    | .ok a => .ok (some a)
    | .error e => .error e.toService

/-- Looks for an earlier answer to a key: gives it, or goes on. -/
def unlessAnswered {α : Type} (key operation : String) (dec : Decoder α)
    (k : Program (Except ServiceError α)) : Program (Except ServiceError α) :=
  .ask (.store (.record key)) fun found =>
    match replayed operation dec found with
    | .error e => .fail e
    | .ok (some a) => .answer a
    | .ok none => k

/-- Looks for an earlier answer to the key of a payment. -/
def unlessPosted (c : PaymentCommand) :
    Program (Except ServiceError PaymentPosted) → Program (Except ServiceError PaymentPosted) :=
  unlessAnswered c.key IdempotencyRecord.postPayment PaymentPosted.decoder

/-- Releases the hold of a payment that could not be written. -/
def compensate (c : PaymentCommand) (id : PaymentId) (e : StoreError) :
    Program (Except ServiceError PaymentPosted) :=
  .ask (.accounts (.release (c.unhold id))) fun released =>
  .ask .now fun at_ =>
  let compensated := match released with
    | .ok o => o.ok
    | .error _ => false
  let details := Json.record [("error", .str e.message), ("compensated", .bool compensated)]
  .ask (.audit (.of "payments.post.failed" c.resource id.toText at_ details)) fun _ =>
  match e with
  | .conflict _ => unlessPosted c (.fail e.toService)
  | _ => .fail e.toService

/-- Records that a payment was posted, and answers. -/
def conclude (c : PaymentCommand) (id : PaymentId) (now : Instant) :
    Program (Except ServiceError PaymentPosted) :=
  let details := Json.record
    [("currency", c.currency.toJson), ("amount", .str c.amount.amountText)]
  .ask (.audit (.of "payments.post" c.resource id.toText now details)) fun _ =>
  .answer (PaymentCommand.answer id)

/-- Writes a payment whose hold is reserved. -/
def persist (c : PaymentCommand) (id : PaymentId) (now : Instant) :
    Program (Except ServiceError PaymentPosted) :=
  .ask .freshId fun journal =>
  .ask .freshId fun debitLine =>
  .ask .freshId fun creditLine =>
  .ofHalt (JournalEntry.forPayment journal (debitLine, creditLine) id c.source c.destination
      c.currency c.amount now c.initiatedBy) (fun e => compensate c id (.domain e)) fun entry =>
  .ask .freshId fun event =>
  .ask (.store (.post (c.rows id entry event now))) fun written =>
  match written with
  | .ok _ => conclude c id now
  | .error e => compensate c id e

/-- Reserves the hold of a payment. -/
def reserve (c : PaymentCommand) : Program (Except ServiceError PaymentPosted) :=
  .ask .freshId fun id =>
  .ask (.accounts (.reserve (c.hold id))) <| .served fun held =>
  if held.ok then .ask .now (persist c id)
  else .fail (.rejected ("reserve hold failed status=" ++ held.status))

/-- Asks the accounts service for leave to post. -/
def whenValid {α : Type} (source destination : AccountId) (currency : Currency) (amount : Decimal)
    (k : Program (Except ServiceError α)) : Program (Except ServiceError α) :=
  .ask (.accounts (.validate source destination currency amount)) <| .served fun v =>
  if v.ok then k
  else .fail (.rejected ("accounts validation failed: " ++ v.reason.getD ""))

/-- Carries out a command to post a payment. -/
def run (c : PaymentCommand) : Program (Except ServiceError PaymentPosted) :=
  unlessPosted c <| whenValid c.source c.destination c.currency c.amount <| reserve c

/-- Posts a payment. -/
def post (r : PaymentRequest) : Program (Except ServiceError PaymentPosted) :=
  match PaymentCommand.ofRequest r with
  | .ok c => run c
  | .error e => .fail e.toService

/-- Shows a payment with its steps. -/
def find (id : PaymentId) : Program (Except ServiceError PaymentView) :=
  .ask (.store (.payment id)) <| .stored fun found =>
  match found with
  | some (p, steps) => .answer (.ofParts p steps)
  | none => .fail (.notFound ("Payment " ++ id.toText))

end Payments

end DoubleEntry
