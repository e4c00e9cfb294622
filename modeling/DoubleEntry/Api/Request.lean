import DoubleEntry.Instant.Text

/-!
# Requests

What a client sends, as it is sent: texts that nobody has looked at yet.

## Main definitions

* `PaymentRequest`, `CreditRequest`, `ManualRequest`: requests to post.
* `ActivityQuery`, `StatementQuery`: which part of a listing is asked for.
-/

namespace DoubleEntry

/-- A request to move an amount between two customers. -/
structure PaymentRequest where
  idempotencyKey : String
  source : String
  destination : String
  currency : String
  amount : String
  initiatedBy : String
  customerId : Option String
deriving DecidableEq

namespace PaymentRequest

/-- Reads a request. -/
def decoder : Decoder PaymentRequest := Fields.decoder "PostPaymentRequest" <|
  PaymentRequest.mk <$> .required "idempotency_key" Decoder.text
    <*> .required "source_account_id" Decoder.text
    <*> .required "destination_account_id" Decoder.text <*> .required "currency" Decoder.text
    <*> .required "amount" Decoder.text <*> .required "initiated_by" Decoder.text
    <*> .omissible "customer_id" Decoder.text

/-- The request as a JSON value. -/
def toJson (r : PaymentRequest) : Json := .obj <| [
  ("idempotency_key", .str r.idempotencyKey),
  ("source_account_id", .str r.source),
  ("destination_account_id", .str r.destination),
  ("currency", .str r.currency),
  ("amount", .str r.amount),
  ("initiated_by", .str r.initiatedBy)] ++
  Json.optField "customer_id" Json.str r.customerId

end PaymentRequest

instance : ToJson PaymentRequest := ⟨PaymentRequest.toJson⟩
instance : FromJson PaymentRequest := ⟨PaymentRequest.decoder⟩

/-- A request to top up a customer. -/
structure CreditRequest where
  idempotencyKey : String
  account : String
  currency : String
  amount : String
  initiatedBy : String
  externalRef : Option String
  reason : Option String
  customerId : Option String
deriving DecidableEq

namespace CreditRequest

/-- Reads a request. -/
def decoder : Decoder CreditRequest := Fields.decoder "CreditAccountRequest" <|
  CreditRequest.mk <$> .required "idempotency_key" Decoder.text
    <*> .required "account_id" Decoder.text <*> .required "currency" Decoder.text
    <*> .required "amount" Decoder.text <*> .required "initiated_by" Decoder.text
    <*> .omissible "external_ref" Decoder.text <*> .omissible "reason" Decoder.text
    <*> .omissible "customer_id" Decoder.text

/-- The request as a JSON value. -/
def toJson (r : CreditRequest) : Json := .obj <| [
  ("idempotency_key", .str r.idempotencyKey),
  ("account_id", .str r.account),
  ("currency", .str r.currency),
  ("amount", .str r.amount),
  ("initiated_by", .str r.initiatedBy)] ++
  Json.optField "external_ref" Json.str r.externalRef ++
  Json.optField "reason" Json.str r.reason ++
  Json.optField "customer_id" Json.str r.customerId

end CreditRequest

instance : ToJson CreditRequest := ⟨CreditRequest.toJson⟩
instance : FromJson CreditRequest := ⟨CreditRequest.decoder⟩

/-- A line of a request to post a journal. -/
structure ManualLineRequest where
  glAccountCode : String
  counterpartyRef : Option String
  debit : Option String
  credit : Option String
deriving DecidableEq

namespace ManualLineRequest

/-- Reads a line. -/
def decoder : Decoder ManualLineRequest := Fields.decoder "ManualLineRequest" <|
  ManualLineRequest.mk <$> .required "gl_account_code" Decoder.text
    <*> .omissible "counterparty_ref" Decoder.text <*> .omissible "debit" Decoder.text
    <*> .omissible "credit" Decoder.text

/-- The line as a JSON value. -/
def toJson (l : ManualLineRequest) : Json := .obj <|
  ("gl_account_code", .str l.glAccountCode) ::
  Json.optField "counterparty_ref" Json.str l.counterpartyRef ++
  Json.optField "debit" Json.str l.debit ++ Json.optField "credit" Json.str l.credit

end ManualLineRequest

instance : ToJson ManualLineRequest := ⟨ManualLineRequest.toJson⟩
instance : FromJson ManualLineRequest := ⟨ManualLineRequest.decoder⟩

/-- A request to post a journal of given lines. -/
structure ManualRequest where
  currency : String
  initiatedBy : String
  externalRef : Option String
  lines : List ManualLineRequest
deriving DecidableEq

namespace ManualRequest

/-- Reads a request. -/
def decoder : Decoder ManualRequest := Fields.decoder "ManualJournalEntryRequest" <|
  ManualRequest.mk <$> .required "currency" Decoder.text <*> .required "initiated_by" Decoder.text
    <*> .omissible "external_ref" Decoder.text
    <*> .required "lines" (Decoder.list ManualLineRequest.decoder)

/-- The request as a JSON value. -/
def toJson (r : ManualRequest) : Json := .obj <| [
  ("currency", .str r.currency),
  ("initiated_by", .str r.initiatedBy)] ++
  Json.optField "external_ref" Json.str r.externalRef ++
  [("lines", .arr (r.lines.map ManualLineRequest.toJson))]

end ManualRequest

instance : ToJson ManualRequest := ⟨ManualRequest.toJson⟩
instance : FromJson ManualRequest := ⟨ManualRequest.decoder⟩

/-- Which journals of an account are asked for. -/
structure ActivityQuery where
  start : Instant
  stop : Instant
  page : Option Nat
  size : Option Nat
deriving DecidableEq

namespace ActivityQuery

/-- Reads a query. -/
def decoder : Decoder ActivityQuery := Fields.decoder "JournalEntriesQuery" <|
  ActivityQuery.mk <$> .required "from" Instant.decoder <*> .required "to" Instant.decoder
    <*> .optional "page" Decoder.word32 <*> .optional "size" Decoder.word32

/-- The query as a JSON value. -/
def toJson (q : ActivityQuery) : Json := .obj [
  ("from", q.start.toJson),
  ("to", q.stop.toJson),
  ("page", Json.option Json.nat q.page),
  ("size", Json.option Json.nat q.size)]

end ActivityQuery

instance : ToJson ActivityQuery := ⟨ActivityQuery.toJson⟩
instance : FromJson ActivityQuery := ⟨ActivityQuery.decoder⟩

/-- Which part of a statement is asked for, and whether with the names of the other customers. -/
structure StatementQuery where
  start : Instant
  stop : Instant
  page : Option Nat
  size : Option Nat
  includeCounterparty : Bool
deriving DecidableEq

namespace StatementQuery

/-- Reads a query. -/
def decoder : Decoder StatementQuery := Fields.decoder "StatementQuery" <|
  StatementQuery.mk <$> .required "from" Instant.decoder <*> .required "to" Instant.decoder
    <*> .optional "page" Decoder.word32 <*> .optional "size" Decoder.word32
    <*> .defaulted "include_counterparty" Decoder.bool false

/-- The query as a JSON value. -/
def toJson (q : StatementQuery) : Json := .obj [
  ("from", q.start.toJson),
  ("to", q.stop.toJson),
  ("page", Json.option Json.nat q.page),
  ("size", Json.option Json.nat q.size),
  ("include_counterparty", .bool q.includeCounterparty)]

end StatementQuery

instance : ToJson StatementQuery := ⟨StatementQuery.toJson⟩
instance : FromJson StatementQuery := ⟨StatementQuery.decoder⟩

end DoubleEntry
