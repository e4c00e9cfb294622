import DoubleEntry.Accounts.Call
import DoubleEntry.Audit
import DoubleEntry.Store.Basic

/-!
# Programs of the services

A service is a program that asks the world one thing after another: the store, the accounts service,
the audit, the relay of events, the clock, and for fresh identifiers. What the world does between
two requests of a program is not the program's: other programs may run in between.

## Main definitions

* `Request`, `Request.Answer`: what a program asks and is answered.
* `Program`: programs. `Program.bind`: one program after another.
* `Program.run`: a program carried out in a world where nothing else runs.
-/

namespace DoubleEntry

/-- What a program asks of the world. -/
inductive Request where
  | store (r : StoreRequest)
  | accounts (c : AccountsCall)
  | audit (r : AuditRecord)
  | publish (topic key : String) (payload : Json)
  /-- The reading of the clock. -/
  | now
  /-- An identifier that nobody has used. -/
  | freshId

/-- What the world answers. -/
def Request.Answer : Request → Type
  | store r => Except StoreError r.Value
  | accounts c => Except GatewayError c.Answer
  | audit _ => Except AuditError Unit
  | publish _ _ _ => Except PublishError Unit
  | now => Instant
  | freshId => Uuid

/-- A program: its result, a crash, or a request and how it goes on after the answer. -/
inductive Program (α : Type) where
  | done (a : α)
  | crash
  | ask (r : Request) (k : r.Answer → Program α)

namespace Program

variable {α β : Type}

/-- One program, then another that depends on the result of the first. -/
def bind : Program α → (α → Program β) → Program β
  | .done a, f => f a
  | .crash, _ => .crash
  | .ask r k, f => .ask r fun a => (k a).bind f

/-- A program with its result changed. -/
def map (f : α → β) (p : Program α) : Program β := p.bind fun a => .done (f a)

/-- Carries out a program in a world, which answers each request or crashes, and changes. -/
def run {σ : Type} (world : (r : Request) → σ → Option r.Answer × σ) : Program α → σ → Option α × σ
  | .done a, s => (some a, s)
  | .crash, s => (none, s)
  | .ask r k, s =>
    match world r s with
    | (some a, s) => (k a).run world s
    | (none, s) => (none, s)

/-- A program that answers with an error. -/
def fail (e : ServiceError) : Program (Except ServiceError α) := .done (.error e)

/-- A program that answers. -/
def answer (a : α) : Program (Except ServiceError α) := .done (.ok a)

/-- The program that a computation leads to; a crash of the computation is one of the program. -/
def ofHalt {ε : Type} (r : Except (Halt ε) α) (refused : ε → Program β) (k : α → Program β) :
    Program β :=
  match r with
  | .ok a => k a
  | .error (.refused e) => refused e
  | .error .crashed => .crash

/-- The program on what a store answered, its error being that of the service. -/
def stored {α β : Type} (k : α → Program (Except ServiceError β)) :
    Except StoreError α → Program (Except ServiceError β)
  | .ok a => k a
  | .error e => fail e.toService

/-- The program on what the accounts service answered, its error being that of the service. -/
def served {α β : Type} (k : α → Program (Except ServiceError β)) :
    Except GatewayError α → Program (Except ServiceError β)
  | .ok a => k a
  | .error e => fail e.toService

end Program

end DoubleEntry
