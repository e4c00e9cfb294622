import DoubleEntry.Http.Address
import DoubleEntry.Http.Message

/-!
# Exchanges over HTTP

A client writes a request, sends it over a network, and reads the response, if there is one. A
request whose address is none, or with a header that holds a control character, cannot be written
and is never sent.

## Main definitions

* `HttpRequest.to?`: the request to an address.
* `Reply`: what a network gives back for a request. `Network`: what a client can do in a world.
* `ExchangeError`: why an exchange leads to nothing. `Network.exchange`: an exchange.
-/

namespace DoubleEntry

/-- The value can be written in a header. -/
def isHeaderValue (value : String) : Bool :=
  value.toList.all fun c => c = '\t' || (32 ≤ c.toNat && c.toNat ≠ 127)

/-- The request to an address with fields added to its query, if it can be written. -/
def HttpRequest.to? (method address : String) (fields : List (String × String)) (headers : Headers)
    (body : Body) : Option HttpRequest := do
  let a ← Address.ofText? address
  if headers.all fun h => isHeaderValue h.2 then
    some ⟨method, a.target fields, headers, body⟩
  else none

/-- What a network gives back for a request. -/
inductive Reply where
  | answered (r : HttpResponse)
  /-- Nobody listens. -/
  | refused
  /-- No response came in time. -/
  | timedOut

/-- What a client can do in a world: read the clock, and send a request. -/
structure Network (σ : Type) where
  clock : σ → Nat
  send : HttpRequest → σ → Reply × σ

/-- Why an exchange leads to nothing. -/
inductive ExchangeError where
  /-- The request cannot be written. -/
  | unwritable
  | refused
  | timedOut
  /-- The response does not carry what was asked for. -/
  | unreadable
deriving DecidableEq

namespace ExchangeError

/-- The wording of an error. -/
def message : ExchangeError → String
  | unwritable => "builder error"
  | refused | timedOut => "error sending request"
  | unreadable => "error decoding response body"

end ExchangeError

/-- Sends a request, if it could be written, and waits for the response. -/
def Network.exchange {σ : Type} (net : Network σ) (r : Option HttpRequest) (s : σ) :
    Except ExchangeError HttpResponse × σ :=
  match r with
  | none => (.error .unwritable, s)
  | some r =>
    match net.send r s with
    | (.answered a, s) => (.ok a, s)
    | (.refused, s) => (.error .refused, s)
    | (.timedOut, s) => (.error .timedOut, s)

end DoubleEntry
