import DoubleEntry.Journal.Json

/-!
# The accounts service

The accounts service knows the customers. It is asked whether a posting may be made, to hold an
amount until a payment is posted, to release a hold, and for the names of customers.

## Main definitions

* `ValidationOutcome`, `HoldRequest`, `HoldOutcome`, `AccountSummary`: what is asked and answered.
-/

namespace DoubleEntry

/-- Whether a posting may be made. -/
structure ValidationOutcome where
  ok : Bool
  reason : Option String
deriving DecidableEq

namespace ValidationOutcome

/-- The posting may be made. -/
def accepted : ValidationOutcome := ⟨true, none⟩

/-- The posting is refused. -/
def refused (reason : String) : ValidationOutcome := ⟨false, some reason⟩

/-- Reads an outcome. -/
def decoder : Decoder ValidationOutcome := Fields.decoder "ValidationOutcome" <|
  ValidationOutcome.mk <$> .required "ok" Decoder.bool <*> .omissible "reason" Decoder.text

/-- The outcome as a JSON value. -/
def toJson (o : ValidationOutcome) : Json :=
  .obj [("ok", .bool o.ok), ("reason", Json.option Json.str o.reason)]

end ValidationOutcome

instance : ToJson ValidationOutcome := ⟨ValidationOutcome.toJson⟩
instance : FromJson ValidationOutcome := ⟨ValidationOutcome.decoder⟩

/-- A request to reserve or to release a hold. -/
structure HoldRequest where
  account : AccountId
  currency : Currency
  amount : Decimal
  holdId : PaymentId
  idempotencyKey : String
  reason : Option String
deriving DecidableEq

namespace HoldRequest

/-- Reads a request. -/
def decoder : Decoder HoldRequest := Fields.decoder "HoldRequest" <|
  HoldRequest.mk <$> .required "account_id" Uuid.decoder
    <*> .required "currency" Currency.decoder <*> .required "amount" Decoder.decimal
    <*> .required "hold_id" Uuid.decoder <*> .required "idempotency_key" Decoder.text
    <*> .omissible "reason" Decoder.text

/-- The request as a JSON value. -/
def toJson (h : HoldRequest) : Json := .obj <| [
  ("account_id", h.account.toJson),
  ("currency", h.currency.toJson),
  ("amount", h.amount.toJson),
  ("hold_id", h.holdId.toJson),
  ("idempotency_key", .str h.idempotencyKey)] ++
  Json.optField "reason" Json.str h.reason

end HoldRequest

instance : ToJson HoldRequest := ⟨HoldRequest.toJson⟩
instance : FromJson HoldRequest := ⟨HoldRequest.decoder⟩

/-- The answer to a request about a hold. -/
structure HoldOutcome where
  ok : Bool
  status : String
  newHold : Option Decimal
deriving DecidableEq

namespace HoldOutcome

/-- Reads an outcome. -/
def decoder : Decoder HoldOutcome := Fields.decoder "HoldOutcome" <|
  HoldOutcome.mk <$> .required "ok" Decoder.bool <*> .defaulted "status" Decoder.text ""
    <*> .omissible "new_hold" Decoder.decimal

/-- The outcome as a JSON value. -/
def toJson (o : HoldOutcome) : Json := .obj [
  ("ok", .bool o.ok),
  ("status", .str o.status),
  ("new_hold", Json.option Decimal.toJson o.newHold)]

end HoldOutcome

instance : ToJson HoldOutcome := ⟨HoldOutcome.toJson⟩
instance : FromJson HoldOutcome := ⟨HoldOutcome.decoder⟩

/-- What a statement shows of another customer. -/
structure AccountSummary where
  account : AccountId
  accountNumber : String
  displayName : String
  accountType : String
deriving DecidableEq

namespace AccountSummary

/-- Reads a summary. -/
def decoder : Decoder AccountSummary := Fields.decoder "AccountSummary" <|
  AccountSummary.mk <$> .required "account_id" Uuid.decoder
    <*> .required "account_number" Decoder.text <*> .required "display_name" Decoder.text
    <*> .required "account_type" Decoder.text

/-- The summary as a JSON value. -/
def toJson (s : AccountSummary) : Json := .obj [
  ("account_id", s.account.toJson),
  ("account_number", .str s.accountNumber),
  ("display_name", .str s.displayName),
  ("account_type", .str s.accountType)]

end AccountSummary

instance : ToJson AccountSummary := ⟨AccountSummary.toJson⟩
instance : FromJson AccountSummary := ⟨AccountSummary.decoder⟩

end DoubleEntry
