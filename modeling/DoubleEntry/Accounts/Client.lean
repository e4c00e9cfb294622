import DoubleEntry.Accounts.Breaker
import DoubleEntry.Accounts.Call
import DoubleEntry.Http.Exchange

/-!
# Clients of the accounts service

A client sends each call as a request over HTTP, and only while its breaker lets it. A call succeeds
if the response is a success and carries an answer, whatever the answer says; anything else counts
as a failure.

## Main definitions

* `AccountsClient`: the settings of a client.
* `AccountsClient.request?`: the request of a call. `AccountsClient.read`: what comes of it.
* `AccountsClient.call`: a call through the breaker.
-/

namespace DoubleEntry

/-- The settings of a client of the accounts service. -/
structure AccountsClient where
  address : String
  token : Option String := none
  /-- Nanoseconds to wait for a response. -/
  timeout : Nat := 3000000000
  breaker : BreakerConfig := {}

namespace AccountsClient

/-- The headers of a call: the token of the client, if it has one, and the key of the call. -/
def headers (c : AccountsClient) (q : AccountsCall) : Headers :=
  let header (name : String) : Option String → Headers
    | none => []
    | some value => [(name, value)]
  ("content-type", "application/json") ::
    header "x-internal-token" (c.token.filter fun t => !t.isEmpty) ++
    header "idempotency-key" q.key?

/-- The request of a call, if it can be written. -/
def request? (c : AccountsClient) (q : AccountsCall) : Option HttpRequest :=
  HttpRequest.to? "POST" (Address.base c.address ++ q.path) [] (c.headers q) (.json q.body)

/-- The error for a response that is no success: the service is unavailable if the fault is its own
or it is asked too much. -/
def refusal (r : HttpResponse) : GatewayError :=
  let text := r.status.text ++ ": " ++ r.body.toText
  if r.status.isServerError || r.status = 429 then .unavailable text else .transport text

/-- What comes of a call. -/
def read (c : AccountsClient) (q : AccountsCall) :
    Except ExchangeError HttpResponse → Except GatewayError q.Answer
  | .error .timedOut => .error (.timeout c.timeout)
  | .error e => .error (.transport e.message)
  | .ok r =>
    if r.status.isSuccess then
      (q.decoder.runText r.body.toText).mapError fun _ =>
        .transport ExchangeError.unreadable.message
    else .error (refusal r)

/-- Makes a call if the breaker admits it, and tells the breaker how it ended. -/
def call {σ : Type} (net : Network σ) (c : AccountsClient) (q : AccountsCall) (b : Breaker)
    (s : σ) : Except GatewayError q.Answer × Breaker × σ :=
  match b.acquire c.breaker (net.clock s) with
  | (none, b) => (.error .circuitOpen, b, s)
  | (some _, b) =>
    let (r, s) := net.exchange (c.request? q) s
    let a := c.read q r
    (a, b.finish c.breaker (net.clock s) a.isOk, s)

end AccountsClient

end DoubleEntry
