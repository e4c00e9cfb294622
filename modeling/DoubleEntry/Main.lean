import DoubleEntry.CommandLine.Output
import DoubleEntry.Http.Wire
import DoubleEntry.Text.Utf8
import Std.Async.DNS
import Std.Async.TCP

/-!
# The command line

`ledger` posts payments and journals and lists accounts through the interface of a ledger. Its words
and its output are those of `DoubleEntry.CommandLine`; here is only what talks to the world.

## Main definitions

* `main`: the command.
-/

namespace DoubleEntry.CommandLine

open Std.Async

/-- Collects what a server sends until it closes the connection, in so many pieces at most. -/
def receive (s : TCP.Socket.Client) : (pieces : Nat) → ByteArray → Async ByteArray
  | 0, sofar => pure sofar
  | n + 1, sofar => do
    match ← s.recv? 65536 with
    | some bytes => receive s n (sofar ++ bytes)
    | none => pure sofar

/-- Sends a request to the server of an address. -/
def send (a : Address) (r : HttpRequest) : Async Reply := do
  let number := a.number.getD 80
  match (← DNS.getAddrInfo a.host (toString number))[0]? with
  | none => return .refused
  | some ip =>
    let s ← TCP.Socket.Client.mk
    s.connect <| match ip with
      | .v4 addr => .v4 ⟨addr, number.toUInt16⟩
      | .v6 addr => .v6 ⟨addr, number.toUInt16⟩
    s.send (r.wire a.server).toUTF8
    let bytes ← receive s 65536 .empty
    return match HttpResponse.ofWire? (Utf8.decodeLossy bytes.toList) with
      | some response => .answered response
      | none => .refused

/-- Carries out a command against the server that it names. -/
def Invocation.perform (i : Invocation) : IO Output := do
  match i.task with
  | .badPaymentId raw => return .badPaymentId raw
  | .call q =>
    let result : Except ExchangeError HttpResponse ←
      match Address.ofText? (Address.base i.client.address), i.client.request? q with
      | some a, some r =>
        match ← try (send a r).block catch _ => pure .refused with
        | .answered response => pure (.ok response)
        | .refused => pure (.error .refused)
        | .timedOut => pure (.error .timedOut)
      | _, _ => pure (.error .unwritable)
    return .ofCall q (LedgerClient.read result q)

/-- An identifier made of random bytes. -/
def freshId : IO Uuid := do
  let bytes ← IO.getRandomBytes 16
  return .ofRandom (bytes.toList.foldl (fun n b => n * 256 + b.toNat) 0)

/-- The variables of the command line that are set. -/
def environment : IO Environment := do
  let names := ["LEDGER_API_URL", "LEDGER_CORRELATION_ID", "LEDGER_ACTOR"]
  let values ← names.mapM fun name => return (name, ← IO.getEnv name)
  return fun name => (values.lookup name).join

end DoubleEntry.CommandLine

open DoubleEntry.CommandLine in
/-- Carries out a command line. -/
def main (args : List String) : IO UInt32 := do
  match Invocation.ofWords? (← environment) (← freshId) args with
  | none =>
    IO.eprintln "usage: ledger [--api-url URL] [--correlation-id ID] payment|ledger|health ..."
    return Output.usageCode.toUInt32
  | some i =>
    let output ← i.perform
    IO.print output.result
    IO.eprint output.notes
    return output.code.toUInt32
