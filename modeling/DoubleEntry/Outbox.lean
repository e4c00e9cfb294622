import DoubleEntry.Json.Codec
import DoubleEntry.Instant.Text
import DoubleEntry.Uuid

/-!
# The outbox

An event waits in the outbox until it is published. A worker claims it first; a claim that is older
than a span of time is stale, and another worker may take the event over.

## Main definitions

* `OutboxEvent`: the events. `OutboxEvent.pending`: an event that nobody claimed yet.
* `OutboxEvent.isClaimable`: the rule of claims; none where its arithmetic leaves the calendar.
-/

namespace DoubleEntry

/-- An event to be published. -/
structure OutboxEvent where
  id : EventId
  aggregateType : String
  aggregateId : Uuid
  eventType : String
  payload : Json
  published : Bool
  publishedAt : Option Instant
  processing : Bool
  processingOwner : Option String
  processingAt : Option Instant
  createdAt : Instant

namespace OutboxEvent

/-- The type of the event of a posted payment. -/
def paymentPosted : String := "payment.posted"

/-- The type of the event of a top-up. -/
def ledgerPosted : String := "ledger.posted"

/-- The type of the event of a manual journal. -/
def manualPosted : String := "ledger.manual_posted"

/-- An event that nobody claimed yet. -/
def pending (id : EventId) (aggregateType : String) (aggregateId : Uuid) (eventType : String)
    (payload : Json) (createdAt : Instant) : OutboxEvent :=
  ⟨id, aggregateType, aggregateId, eventType, payload, false, none, false, none, none, createdAt⟩

/-- The event is free at `now`: not published, and not claimed within the last `ttl` nanoseconds. -/
def isClaimable (e : OutboxEvent) (now : Instant) (ttl : Int) : Option Bool :=
  if e.published then some false
  else
    match e.processing, e.processingAt with
    | true, some claimedAt => do return decide (claimedAt < (← now.shift (-ttl)))
    | _, _ => some true

/-- The event as a JSON value. -/
def toJson (e : OutboxEvent) : Json := .obj [
  ("id", e.id.toJson),
  ("aggregate_type", .str e.aggregateType),
  ("aggregate_id", e.aggregateId.toJson),
  ("event_type", .str e.eventType),
  ("payload", e.payload),
  ("published", .bool e.published),
  ("published_at", Json.option Instant.toJson e.publishedAt),
  ("processing", .bool e.processing),
  ("processing_owner", Json.option Json.str e.processingOwner),
  ("processing_at", Json.option Instant.toJson e.processingAt),
  ("created_at", e.createdAt.toJson)]

/-- Reads an event. -/
def decoder : Decoder OutboxEvent := Fields.decoder "OutboxEvent" <|
  OutboxEvent.mk <$> .required "id" Uuid.decoder <*> .required "aggregate_type" Decoder.text
    <*> .required "aggregate_id" Uuid.decoder <*> .required "event_type" Decoder.text
    <*> .required "payload" Decoder.json <*> .required "published" Decoder.bool
    <*> .optional "published_at" Instant.decoder <*> .required "processing" Decoder.bool
    <*> .optional "processing_owner" Decoder.text <*> .optional "processing_at" Instant.decoder
    <*> .required "created_at" Instant.decoder

end OutboxEvent

instance : ToJson OutboxEvent := ⟨OutboxEvent.toJson⟩
instance : FromJson OutboxEvent := ⟨OutboxEvent.decoder⟩

end DoubleEntry
