import DoubleEntry.Api.Request
import DoubleEntry.Api.Response
import DoubleEntry.Http.Message

/-!
# Calls to the ledger

## Main definitions

* `LedgerCall`: what a client asks of the ledger. `LedgerCall.Answer`: what it is answered.
* `LedgerCall.method`, `LedgerCall.path`, `LedgerCall.fields`, `LedgerCall.body`: how a call is
  written as a request.
* `LedgerCall.decoder`: how its answer is read. `LedgerCall.encode`: how it is shown.
-/

namespace DoubleEntry

/-- What a client asks of the ledger. -/
inductive LedgerCall where
  /-- Whether the ledger is at work. -/
  | health
  | payment (r : PaymentRequest)
  | findPayment (id : PaymentId)
  | credit (r : CreditRequest)
  | manual (r : ManualRequest)
  | activity (account : String) (q : ActivityQuery)
  | statement (account : String) (q : StatementQuery)
deriving DecidableEq

namespace LedgerCall

/-- What a client is answered. -/
def Answer : LedgerCall → Type
  | health => Bool
  | payment _ => PaymentPosted
  | findPayment _ => PaymentView
  | credit _ | manual _ => JournalPosted
  | activity _ _ => JournalPage
  | statement _ _ => StatementPage

/-- The method of a call. -/
def method : LedgerCall → String
  | payment _ | credit _ | manual _ => "POST"
  | health | findPayment _ | activity _ _ | statement _ _ => "GET"

/-- The path of a call. -/
def path : LedgerCall → String
  | health => "/health"
  | payment _ => "/v1/payments"
  | findPayment id => "/v1/payments/" ++ id.toText
  | credit _ => "/v1/ledger/credits"
  | manual _ => "/v1/ledger/journal-entries"
  | activity account _ => "/v1/ledger/accounts/" ++ account ++ "/journal-entries"
  | statement account _ => "/v1/ledger/accounts/" ++ account ++ "/statement"

/-- The fields of a query for a part of a listing. -/
def windowFields (start stop : Instant) (page size : Option Nat) : List (String × String) :=
  let number (name : String) : Option Nat → List (String × String)
    | none => []
    | some n => [(name, toString n)]
  ("from", start.toText) :: ("to", stop.toText) :: number "page" page ++ number "size" size

/-- The fields of the query of a call. -/
def fields : LedgerCall → List (String × String)
  | activity _ q => windowFields q.start q.stop q.page q.size
  | statement _ q => windowFields q.start q.stop q.page q.size ++
    [("include_counterparty", if q.includeCounterparty then "true" else "false")]
  | health | payment _ | findPayment _ | credit _ | manual _ => []

/-- What a call carries. -/
def body : LedgerCall → Body
  | payment r => .json r.toJson
  | credit r => .json r.toJson
  | manual r => .json r.toJson
  | health | findPayment _ | activity _ _ | statement _ _ => .none

/-- Reads the answer to a call. -/
def decoder : (c : LedgerCall) → Decoder c.Answer
  | health => Decoder.bool
  | payment _ => PaymentPosted.decoder
  | findPayment _ => PaymentView.decoder
  | credit _ | manual _ => JournalPosted.decoder
  | activity _ _ => JournalPage.decoder
  | statement _ _ => StatementPage.decoder

/-- The answer to a call as a JSON value. -/
def encode : (c : LedgerCall) → c.Answer → Json
  | health => Json.bool
  | payment _ => PaymentPosted.toJson
  | findPayment _ => PaymentView.toJson
  | credit _ | manual _ => JournalPosted.toJson
  | activity _ _ => JournalPage.toJson
  | statement _ _ => StatementPage.toJson

/-- The key under which a call may be made again. -/
def key? : LedgerCall → Option String
  | payment r => some r.idempotencyKey
  | credit r => some r.idempotencyKey
  | health | findPayment _ | manual _ | activity _ _ | statement _ _ => none

end LedgerCall

end DoubleEntry
