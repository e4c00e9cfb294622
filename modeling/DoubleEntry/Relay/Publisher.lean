import DoubleEntry.Error
import DoubleEntry.Http.Exchange

/-!
# Publishing over HTTP

An event is sent to an address with its topic and its key as headers. Where there is a secret, the
text that is sent is signed with it.

## Main definitions

* `Publisher`: the settings. `Publisher.request?`: the request for an event.
* `Publisher.publish`: sends an event.
-/

namespace DoubleEntry

/-- The settings for publishing over HTTP. -/
structure Publisher where
  address : String
  secret : Option String := none

namespace Publisher

/-- The headers of an event. -/
def headers (p : Publisher) (topic key body : String) : Headers :=
  [("content-type", "application/json"), ("x-ledger-topic", topic), ("x-ledger-key", key)] ++
    match p.secret.filter fun s => !s.isEmpty with
    | none => []
    | some secret => [("x-ledger-signature", sign body secret)]

/-- The request for an event, if it can be written. -/
def request? (p : Publisher) (topic key : String) (payload : Json) : Option HttpRequest :=
  HttpRequest.to? "POST" p.address [] (p.headers topic key payload.compact) (.json payload)

/-- What comes of sending an event. -/
def read : Except ExchangeError HttpResponse → Except PublishError Unit
  | .error e => .error (.transport e.message)
  | .ok r => if r.status.isSuccess then .ok () else .error (.rejected r.status r.body.toText)

/-- Sends an event. -/
def publish {σ : Type} (net : Network σ) (p : Publisher) (topic key : String) (payload : Json)
    (s : σ) : Except PublishError Unit × σ :=
  let (r, s) := net.exchange (p.request? topic key payload) s
  (read r, s)

end Publisher

end DoubleEntry
