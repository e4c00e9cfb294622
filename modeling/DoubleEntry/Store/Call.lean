import DoubleEntry.Command.Basic
import DoubleEntry.Idempotency
import DoubleEntry.Outbox
import DoubleEntry.Payment

/-!
# Calls of a store

A store keeps payments with their steps, journals, the outbox and the records of answered requests.
A unit of work is a run of calls, each of which may look at the answers to the earlier ones. It
succeeds as a whole or has no effect.

## Main definitions

* `Row`: what can be inserted. `Call`, `Call.Answer`: the calls, and what they answer.
* `Backend`: stores that carry out calls.
* `Work`: units of work. `Work.run`: the calls of a unit, carried out until one fails.
-/

namespace DoubleEntry

/-- What can be inserted into a store. -/
inductive Row where
  | payment (p : Payment)
  | step (s : PaymentStep)
  | journal (j : JournalEntry)
  | event (e : OutboxEvent)
  | record (r : IdempotencyRecord)

/-- A call of a store. -/
inductive Call where
  | insert (row : Row)
  /-- The payment of an identifier. -/
  | payment (id : PaymentId)
  /-- The payment of a key. -/
  | paymentOfKey (key : String)
  /-- The steps of a payment in the order of their times. -/
  | steps (id : PaymentId)
  /-- The journal of an identifier. -/
  | journal (id : JournalId)
  /-- A page of the journals that name an account, the latest first. -/
  | activity (listing : Listing)
  /-- The event of an identifier. -/
  | event (id : EventId)
  /-- Claims free events for a worker, the oldest first. -/
  | claim (limit : Nat) (owner : String) (now : Instant) (ttl : Int)
  /-- Marks events as published. -/
  | markPublished (ids : List EventId) (now : Instant)
  /-- Gives up the claims of a worker. -/
  | releaseClaims (ids : List EventId) (owner : String)
  /-- The record of a key. -/
  | record (key : String)

/-- What a call answers. -/
def Call.Answer : Call → Type
  | insert _ => Unit
  | payment _ => Option Payment
  | paymentOfKey _ => Option Payment
  | steps _ => List PaymentStep
  | journal _ => Option JournalEntry
  | activity _ => List JournalEntry
  | event _ => Option OutboxEvent
  | claim _ _ _ _ => List OutboxEvent
  | markPublished _ _ => Nat
  | releaseClaims _ _ => Nat
  | record _ => Option IdempotencyRecord

/-- The answer to a call as a JSON value. -/
def Call.encode : (c : Call) → c.Answer → Json
  | insert _, () => .null
  | payment _, p => Json.option Payment.toJson p
  | paymentOfKey _, p => Json.option Payment.toJson p
  | steps _, found => .arr (found.map PaymentStep.toJson)
  | journal _, j => Json.option JournalEntry.toJson j
  | activity _, found => .arr (found.map JournalEntry.toJson)
  | event _, e => Json.option OutboxEvent.toJson e
  | claim _ _ _ _, claimed => .arr (claimed.map OutboxEvent.toJson)
  | markPublished _ _, n => .nat n
  | releaseClaims _ _, n => .nat n
  | record _, r => Json.option IdempotencyRecord.toJson r

/-- What a step of a store ends with. -/
abbrev Outcome (α : Type) := Except (Halt StoreError) α

/-- A store that carries out calls. The state is given also after a failure. -/
class Backend (σ : Type) where
  call : (c : Call) → σ → Outcome c.Answer × σ

/-- A unit of work. -/
inductive Work (α : Type) where
  | done (a : α)
  | call (c : Call) (k : c.Answer → Work α)

namespace Work

variable {α σ : Type}

/-- Carries out a unit of work until a call fails. -/
def run [Backend σ] : Work α → σ → Outcome α × σ
  | .done a, s => (.ok a, s)
  | .call c k, s =>
    match Backend.call c s with
    | (.ok a, s) => (k a).run s
    | (.error h, s) => (.error h, s)

/-- Inserts rows in their order. -/
def insertAll : List Row → Work Unit
  | [] => .done ()
  | r :: rs => .call (.insert r) fun _ => insertAll rs

/-- A single call. -/
def single (c : Call) : Work c.Answer := .call c .done

end Work

end DoubleEntry
