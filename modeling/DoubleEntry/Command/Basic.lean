import DoubleEntry.Api.Request
import DoubleEntry.Chart
import DoubleEntry.Command.Field

/-!
# Commands

A command is a request whose fields have been read. The fields are looked at in a fixed order, and
the first that is refused refuses the request.

## Main definitions

* `PaymentCommand`, `CreditCommand`, `ManualCommand`: commands to post, each `ofRequest`.
* `Listing`, `StatementCommand`: commands to list, each `ofQuery`.
* `Resource`: what a command is about and who gave it, for the audit.
-/

namespace DoubleEntry

/-- What a command is about, and who gave it. -/
structure Resource where
  type : String
  id : String
  actor : String
deriving DecidableEq

/-- The resource as a JSON value. -/
def Resource.toJson (r : Resource) : Json :=
  .obj [("type", .str r.type), ("id", .str r.id), ("actor", .str r.actor)]

instance : ToJson Resource := ⟨Resource.toJson⟩

/-- A command to move an amount between two different customers. -/
structure PaymentCommand where
  key : String
  source : AccountId
  destination : AccountId
  currency : Currency
  amount : Decimal
  initiatedBy : String
  customerId : Option String
deriving DecidableEq

namespace PaymentCommand

/-- The command of a request. -/
def ofRequest (r : PaymentRequest) : Except DomainError PaymentCommand := do
  let key ← Field.key r.idempotencyKey
  let source ← Field.account r.source "source_account_id"
  let destination ← Field.account r.destination "destination_account_id"
  if source = destination then Field.refuse .sameAccounts
  else do
    let customer ← Field.optionalAccount r.customerId "customer_id"
    return ⟨key, source, destination, ← Field.currency r.currency, ← Field.amount r.amount "amount",
      ← Field.actor r.initiatedBy, customer.map Uuid.toText⟩

/-- A payment is known by its key. -/
def resource (c : PaymentCommand) : Resource := ⟨"payments", c.key, c.initiatedBy⟩

end PaymentCommand

/-- A command to top up a customer. -/
structure CreditCommand where
  key : String
  account : AccountId
  currency : Currency
  amount : Decimal
  initiatedBy : String
  externalRef : String
deriving DecidableEq

namespace CreditCommand

/-- The command of a request; reason and customer are asked for their form only. -/
def ofRequest (r : CreditRequest) : Except DomainError CreditCommand := do
  let key ← Field.key r.idempotencyKey
  let account ← Field.account r.account "account_id"
  let currency ← Field.currency r.currency
  let amount ← Field.amount r.amount "amount"
  let actor ← Field.actor r.initiatedBy
  let externalRef ← Field.externalRef r.externalRef
  let _ ← Field.reason r.reason
  let _ ← Field.optionalAccount r.customerId "customer_id"
  return ⟨key, account, currency, amount, actor, externalRef.getD ""⟩

/-- A top-up is known by its account. -/
def resource (c : CreditCommand) : Resource :=
  ⟨"journal_entries", c.account.toText, c.initiatedBy⟩

end CreditCommand

/-- A line of a journal to be posted. -/
structure ManualLine where
  glAccount : GlAccount
  counterparty : Option AccountId
  debit : Decimal
  credit : Decimal
deriving DecidableEq

/-- A command to post a journal of given lines. -/
structure ManualCommand where
  currency : Currency
  initiatedBy : String
  externalRef : String
  lines : List ManualLine
deriving DecidableEq

namespace ManualLine

/-- One side of the line at an index: nought if it is blank. -/
def side (index : Nat) (name : String) (raw : Option String) : Except DomainError Decimal :=
  match raw.map trim with
  | none => .ok .zero
  | some s =>
    if s.toList.isEmpty then .ok .zero
    else Field.decimal s ("lines[" ++ toString index ++ "]." ++ name)

/-- The line of a request at an index. -/
def ofRequest (index : Nat) (l : ManualLineRequest) : Except DomainError ManualLine := do
  let code ← Field.required l.glAccountCode "gl_account_code" 64
  let counterparty ← Field.optionalAccount l.counterpartyRef "counterparty_ref"
  return ⟨← GlAccount.ofCode code, counterparty, ← side index "debit" l.debit,
    ← side index "credit" l.credit⟩

/-- The lines of a request from an index on. -/
def ofRequests : (index : Nat) → List ManualLineRequest → Except DomainError (List ManualLine)
  | _, [] => .ok []
  | i, l :: ls => do
    let line ← ofRequest i l
    let lines ← ofRequests (i + 1) ls
    return line :: lines

end ManualLine

namespace ManualCommand

/-- The most lines of a journal that is posted by hand. -/
def maxLines : Nat := 100

/-- The command of a request; whether the lines are balanced is not asked. -/
def ofRequest (r : ManualRequest) : Except DomainError ManualCommand :=
  if maxLines < r.lines.length then Field.refuse (.tooManyLines maxLines)
  else do
    let lines ← ManualLine.ofRequests 0 r.lines
    return ⟨← Field.currency r.currency, ← Field.actor r.initiatedBy,
      (← Field.externalRef r.externalRef).getD "", lines⟩

/-- A journal is known by its reference, if it has one. -/
def resource (c : ManualCommand) : Resource :=
  ⟨"journal_entries", if c.externalRef.isEmpty then "manual" else c.externalRef, c.initiatedBy⟩

end ManualCommand

/-- A page of the journals of an account within a span of time. -/
structure Listing where
  account : AccountId
  start : Instant
  stop : Instant
  page : Nat
  size : Nat
deriving DecidableEq

namespace Listing

/-- The most days of a listing of journals. -/
def maxDays : Nat := 90

/-- The listing of these fields, of at most so many days. -/
def ofFields (account : String) (start stop : Instant) (page size : Option Nat) (maxDays : Nat) :
    Except DomainError Listing := do
  let account ← Field.account account "account_id"
  let (start, stop) ← Field.window start stop maxDays
  let (page, size) ← Field.page page size
  return ⟨account, start, stop, page, size⟩

/-- The listing of a query. -/
def ofQuery (account : String) (q : ActivityQuery) : Except DomainError Listing :=
  ofFields account q.start q.stop q.page q.size maxDays

end Listing

/-- A command to list a statement. -/
structure StatementCommand where
  listing : Listing
  includeCounterparty : Bool
deriving DecidableEq

namespace StatementCommand

/-- The most days of a statement. -/
def maxDays : Nat := 180

/-- The command of a query. -/
def ofQuery (account : String) (q : StatementQuery) : Except DomainError StatementCommand := do
  let listing ← Listing.ofFields account q.start q.stop q.page q.size maxDays
  return ⟨listing, q.includeCounterparty⟩

end StatementCommand

end DoubleEntry
