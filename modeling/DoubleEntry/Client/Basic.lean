import DoubleEntry.Client.Call
import DoubleEntry.Http.Exchange

/-!
# Clients of the ledger

## Main definitions

* `ClientError`: why a call has no answer. `ClientError.isRetryable`: whether it may be made again.
* `LedgerClient`: the settings of a client. `LedgerClient.call`: a call.
-/

namespace DoubleEntry

/-- Why a call has no answer. -/
inductive ClientError where
  | exchange (e : ExchangeError)
  /-- The ledger answered with an error. -/
  | refused (status : Status) (message : String) (correlation : Option String)
  /-- The answer is not of the expected shape. -/
  | unreadable (message : String)
deriving DecidableEq

namespace ClientError

/-- The wording of an error. -/
def message : ClientError → String
  | exchange e => "HTTP error: " ++ e.message
  | refused status message _ => "API error: " ++ toString status ++ " - " ++ message
  | unreadable message => "JSON error: " ++ message

/-- The name of the kind of an error. -/
def kind : ClientError → String
  | exchange _ => "Http"
  | refused _ _ _ => "Api"
  | unreadable _ => "Json"

/-- The call may be made again with the same key: the ledger was not reached or is at fault. -/
def isRetryable : ClientError → Bool
  | exchange .refused | exchange .timedOut => true
  | exchange .unwritable | exchange .unreadable => false
  | refused status _ _ => 500 ≤ status
  | unreadable _ => false

end ClientError

/-- The settings of a client of the ledger. -/
structure LedgerClient where
  address : String
  /-- An identifier that marks all requests of the client. -/
  correlation : Option String := none
deriving DecidableEq

namespace LedgerClient

/-- The headers of a call. -/
def headers (c : LedgerClient) (q : LedgerCall) : Headers :=
  let type : Headers := match q.body with
    | .none => []
    | _ => [("content-type", "application/json")]
  match q, c.correlation with
  | .health, _ | _, none => type
  | _, some id => ("x-correlation-id", id) :: type

/-- The request of a call, if it can be written. -/
def request? (c : LedgerClient) (q : LedgerCall) : Option HttpRequest :=
  HttpRequest.to? q.method (Address.base c.address ++ q.path) q.fields (c.headers q) q.body

/-- The error that a response tells: the message of its body, or the whole body. -/
def refusal (r : HttpResponse) : ClientError :=
  let text := r.body.toText
  let message := (((Json.parse text).toOption.bind (·.field? "error")).bind Json.text?).getD text
  .refused r.status message <| (r.header? "x-correlation-id").filter fun id =>
    id.toList.all fun c => c = '\t' || (' ' ≤ c && c ≤ '~')

/-- Reads the answer of a response that is a success. -/
def answered (q : LedgerCall) (r : HttpResponse) : Except ClientError q.Answer :=
  if r.status.isSuccess then
    (q.decoder.runText r.body.toText).mapError fun e => .unreadable e.message
  else .error (refusal r)

/-- What comes of a call; for its health a ledger need only answer. -/
def read (r : Except ExchangeError HttpResponse) : (q : LedgerCall) → Except ClientError q.Answer
  | .health => (r.map fun a => a.status.isSuccess).mapError .exchange
  | q => r.mapError .exchange >>= answered q

/-- Makes a call. -/
def call {σ : Type} (net : Network σ) (c : LedgerClient) (q : LedgerCall) (s : σ) :
    Except ClientError q.Answer × σ :=
  let (r, s) := net.exchange (c.request? q) s
  (read r q, s)

end LedgerClient

end DoubleEntry
