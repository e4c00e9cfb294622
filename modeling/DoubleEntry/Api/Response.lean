import DoubleEntry.Accounts.Basic
import DoubleEntry.Payment
import DoubleEntry.Statement

/-!
# Responses

What a client is answered. Amounts are shown with six places. A field that has no value is left
out, not shown as `null`.

## Main definitions

* `PaymentPosted`, `JournalPosted`: answers to requests to post.
* `PaymentView`, `JournalView`, `StatementItem`: what is shown of a payment, a journal and a
  statement. `JournalPage`, `StatementPage`: pages of them.
-/

namespace DoubleEntry

/-- The answer to a posted payment. -/
structure PaymentPosted where
  paymentId : PaymentId
  status : PaymentStatus
deriving DecidableEq

namespace PaymentPosted

/-- Reads an answer. -/
def decoder : Decoder PaymentPosted := Fields.decoder "PostPaymentResponse" <|
  PaymentPosted.mk <$> .required "payment_id" Uuid.decoder
    <*> .required "status" PaymentStatus.decoder

/-- The answer as a JSON value. -/
def toJson (p : PaymentPosted) : Json :=
  .obj [("payment_id", p.paymentId.toJson), ("status", p.status.toJson)]

end PaymentPosted

instance : ToJson PaymentPosted := ⟨PaymentPosted.toJson⟩
instance : FromJson PaymentPosted := ⟨PaymentPosted.decoder⟩

/-- The answer to a posted journal. -/
structure JournalPosted where
  journalId : JournalId
  status : String
deriving DecidableEq

namespace JournalPosted

/-- Reads an answer. -/
def decoder : Decoder JournalPosted := Fields.decoder "JournalPostedResponse" <|
  JournalPosted.mk <$> .required "journal_id" Uuid.decoder <*> .required "status" Decoder.text

/-- The answer as a JSON value. -/
def toJson (p : JournalPosted) : Json :=
  .obj [("journal_id", p.journalId.toJson), ("status", .str p.status)]

end JournalPosted

instance : ToJson JournalPosted := ⟨JournalPosted.toJson⟩
instance : FromJson JournalPosted := ⟨JournalPosted.decoder⟩

/-- What is shown of a step of a payment. -/
structure StepView where
  step : String
  state : String
  details : Json
  attemptedAt : Instant

namespace StepView

/-- What is shown of a step. -/
def ofStep (s : PaymentStep) : StepView := ⟨s.step, s.state, s.details, s.attemptedAt⟩

/-- Reads a shown step. -/
def decoder : Decoder StepView := Fields.decoder "PaymentStepResponse" <|
  StepView.mk <$> .required "step" Decoder.text <*> .required "state" Decoder.text
    <*> .required "details" Decoder.json <*> .required "attempted_at" Instant.decoder

/-- The shown step as a JSON value. -/
def toJson (s : StepView) : Json := .obj [
  ("step", .str s.step),
  ("state", .str s.state),
  ("details", s.details),
  ("attempted_at", s.attemptedAt.toJson)]

end StepView

instance : ToJson StepView := ⟨StepView.toJson⟩
instance : FromJson StepView := ⟨StepView.decoder⟩

/-- What is shown of a payment. -/
structure PaymentView where
  paymentId : PaymentId
  idempotencyKey : String
  source : AccountId
  destination : AccountId
  currency : String
  amount : String
  status : PaymentStatus
  customerId : Option String
  holdId : PaymentId
  journalId : Option JournalId
  createdAt : Instant
  updatedAt : Instant
  steps : List StepView

namespace PaymentView

/-- What is shown of a payment with its steps. -/
def ofParts (p : Payment) (steps : List PaymentStep) : PaymentView :=
  ⟨p.id, p.idempotencyKey, p.source, p.destination, p.currency.code, p.amount.amountText, p.status,
    p.customerId, p.holdId, p.journalId, p.createdAt, p.updatedAt, steps.map StepView.ofStep⟩

/-- Reads a shown payment. -/
def decoder : Decoder PaymentView := Fields.decoder "PaymentResponse" <|
  PaymentView.mk <$> .required "payment_id" Uuid.decoder
    <*> .required "idempotency_key" Decoder.text <*> .required "source_account_id" Uuid.decoder
    <*> .required "destination_account_id" Uuid.decoder <*> .required "currency" Decoder.text
    <*> .required "amount" Decoder.text <*> .required "status" PaymentStatus.decoder
    <*> .optional "customer_id" Decoder.text <*> .required "hold_id" Uuid.decoder
    <*> .optional "journal_id" Uuid.decoder <*> .required "created_at" Instant.decoder
    <*> .required "updated_at" Instant.decoder
    <*> .required "steps" (Decoder.list StepView.decoder)

/-- The shown payment as a JSON value. -/
def toJson (p : PaymentView) : Json := .obj <| [
  ("payment_id", p.paymentId.toJson),
  ("idempotency_key", .str p.idempotencyKey),
  ("source_account_id", p.source.toJson),
  ("destination_account_id", p.destination.toJson),
  ("currency", .str p.currency),
  ("amount", .str p.amount),
  ("status", p.status.toJson)] ++
  Json.optField "customer_id" Json.str p.customerId ++
  ("hold_id", p.holdId.toJson) ::
  Json.optField "journal_id" Uuid.toJson p.journalId ++ [
  ("created_at", p.createdAt.toJson),
  ("updated_at", p.updatedAt.toJson),
  ("steps", .arr (p.steps.map StepView.toJson))]

end PaymentView

instance : ToJson PaymentView := ⟨PaymentView.toJson⟩
instance : FromJson PaymentView := ⟨PaymentView.decoder⟩

/-- What is shown of a line of a journal. -/
structure LineView where
  glAccountCode : String
  counterpartyRef : Option AccountId
  debit : String
  credit : String
deriving DecidableEq

namespace LineView

/-- What is shown of a line. -/
def ofLine (l : EntryLine) : LineView :=
  ⟨l.glAccount.code, l.counterparty, l.debit.amountText, l.credit.amountText⟩

/-- Reads a shown line. -/
def decoder : Decoder LineView := Fields.decoder "JournalLineView" <|
  LineView.mk <$> .required "gl_account_code" Decoder.text
    <*> .optional "counterparty_ref" Uuid.decoder <*> .required "debit" Decoder.text
    <*> .required "credit" Decoder.text

/-- The shown line as a JSON value. -/
def toJson (l : LineView) : Json := .obj <|
  ("gl_account_code", .str l.glAccountCode) ::
  Json.optField "counterparty_ref" Uuid.toJson l.counterpartyRef ++
  [("debit", .str l.debit), ("credit", .str l.credit)]

end LineView

instance : ToJson LineView := ⟨LineView.toJson⟩
instance : FromJson LineView := ⟨LineView.decoder⟩

/-- What is shown of a journal. -/
structure JournalView where
  journalId : JournalId
  currency : String
  status : String
  bookedAt : Instant
  externalRef : String
  createdBy : String
  lines : List LineView
deriving DecidableEq

namespace JournalView

/-- What is shown of a journal. -/
def ofEntry (j : JournalEntry) : JournalView :=
  ⟨j.id, j.currency.code, j.status.name, j.bookedAt, j.externalRef, j.createdBy,
    j.lines.map LineView.ofLine⟩

/-- Reads a shown journal. -/
def decoder : Decoder JournalView := Fields.decoder "JournalEntryView" <|
  JournalView.mk <$> .required "journal_id" Uuid.decoder <*> .required "currency" Decoder.text
    <*> .required "status" Decoder.text <*> .required "booked_at" Instant.decoder
    <*> .required "external_ref" Decoder.text <*> .required "created_by" Decoder.text
    <*> .required "lines" (Decoder.list LineView.decoder)

/-- The shown journal as a JSON value. -/
def toJson (j : JournalView) : Json := .obj [
  ("journal_id", j.journalId.toJson),
  ("currency", .str j.currency),
  ("status", .str j.status),
  ("booked_at", j.bookedAt.toJson),
  ("external_ref", .str j.externalRef),
  ("created_by", .str j.createdBy),
  ("lines", .arr (j.lines.map LineView.toJson))]

end JournalView

instance : ToJson JournalView := ⟨JournalView.toJson⟩
instance : FromJson JournalView := ⟨JournalView.decoder⟩

/-- A page of journals. -/
structure JournalPage where
  entries : List JournalView
  page : Nat
  size : Nat
deriving DecidableEq

namespace JournalPage

/-- Reads a page. -/
def decoder : Decoder JournalPage := Fields.decoder "JournalEntriesPage" <|
  JournalPage.mk <$> .required "entries" (Decoder.list JournalView.decoder)
    <*> .required "page" Decoder.word32 <*> .required "size" Decoder.word32

/-- The page as a JSON value. -/
def toJson (p : JournalPage) : Json := .obj [
  ("entries", .arr (p.entries.map JournalView.toJson)),
  ("page", .nat p.page),
  ("size", .nat p.size)]

end JournalPage

instance : ToJson JournalPage := ⟨JournalPage.toJson⟩
instance : FromJson JournalPage := ⟨JournalPage.decoder⟩

namespace Direction

/-- The direction as a JSON value. -/
def toJson (d : Direction) : Json := .str d.name

/-- Reads a direction from its name. -/
def decoder : Decoder Direction := Decoder.variant names

end Direction

instance : ToJson Direction := ⟨Direction.toJson⟩
instance : FromJson Direction := ⟨Direction.decoder⟩

namespace StatementKind

/-- The kind as a JSON value. -/
def toJson (k : StatementKind) : Json := .str k.name

/-- Reads a kind from its name. -/
def decoder : Decoder StatementKind := Decoder.variant names

end StatementKind

instance : ToJson StatementKind := ⟨StatementKind.toJson⟩
instance : FromJson StatementKind := ⟨StatementKind.decoder⟩

/-- What is shown of a line of a statement. -/
structure StatementItem where
  journalId : JournalId
  bookedAt : Instant
  currency : String
  direction : Direction
  amount : String
  kind : StatementKind
  memo : String
  counterpartyId : Option AccountId
  counterparty : Option AccountSummary
deriving DecidableEq

namespace StatementItem

/-- What is shown of a line, without the name of the other customer. -/
def ofLine (l : StatementLine) : StatementItem :=
  ⟨l.journalId, l.bookedAt, l.currency.code, l.direction, l.amount.amountText, l.kind, l.memo,
    l.counterparty, none⟩

/-- Reads a shown line. -/
def decoder : Decoder StatementItem := Fields.decoder "StatementItemView" <|
  StatementItem.mk <$> .required "journal_id" Uuid.decoder
    <*> .required "booked_at" Instant.decoder <*> .required "currency" Decoder.text
    <*> .required "direction" Direction.decoder <*> .required "amount" Decoder.text
    <*> .required "kind" StatementKind.decoder <*> .required "memo" Decoder.text
    <*> .optional "counterparty_account_id" Uuid.decoder
    <*> .optional "counterparty" AccountSummary.decoder

/-- The shown line as a JSON value. -/
def toJson (i : StatementItem) : Json := .obj <| [
  ("journal_id", i.journalId.toJson),
  ("booked_at", i.bookedAt.toJson),
  ("currency", .str i.currency),
  ("direction", i.direction.toJson),
  ("amount", .str i.amount),
  ("kind", i.kind.toJson),
  ("memo", .str i.memo)] ++
  Json.optField "counterparty_account_id" Uuid.toJson i.counterpartyId ++
  Json.optField "counterparty" AccountSummary.toJson i.counterparty

end StatementItem

instance : ToJson StatementItem := ⟨StatementItem.toJson⟩
instance : FromJson StatementItem := ⟨StatementItem.decoder⟩

/-- A page of a statement. -/
structure StatementPage where
  items : List StatementItem
  page : Nat
  size : Nat
deriving DecidableEq

namespace StatementPage

/-- Reads a page. -/
def decoder : Decoder StatementPage := Fields.decoder "StatementPage" <|
  StatementPage.mk <$> .required "items" (Decoder.list StatementItem.decoder)
    <*> .required "page" Decoder.word32 <*> .required "size" Decoder.word32

/-- The page as a JSON value. -/
def toJson (p : StatementPage) : Json := .obj [
  ("items", .arr (p.items.map StatementItem.toJson)),
  ("page", .nat p.page),
  ("size", .nat p.size)]

end StatementPage

instance : ToJson StatementPage := ⟨StatementPage.toJson⟩
instance : FromJson StatementPage := ⟨StatementPage.decoder⟩

end DoubleEntry
