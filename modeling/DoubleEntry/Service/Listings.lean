import DoubleEntry.Service.Program
import DoubleEntry.Api.Response

/-!
# Listings

The journals of an account are listed as they are, or seen from the side of the account as a
statement. A statement may show the names of the other customers, if the accounts service gives
them; that somebody looked at it is recorded.

## Main definitions

* `Listings.journals`: the journals of an account. `Listings.statement`: its statement.
-/

namespace DoubleEntry

namespace Listings

/-- Lists the journals of an account. -/
def journals (account : String) (q : ActivityQuery) : Program (Except ServiceError JournalPage) :=
  match Listing.ofQuery account q with
  | .error e => .fail e.toService
  | .ok l =>
    .ask (.store (.activity l)) <| .stored fun entries =>
    .answer ⟨entries.map JournalView.ofEntry, l.page, l.size⟩

/-- Puts an identifier into a sorted list without repetitions. -/
def insertId (id : AccountId) : List AccountId → List AccountId
  | [] => [id]
  | i :: is => if id < i then id :: i :: is else if id = i then i :: is else i :: insertId id is

/-- The other customers of a statement, in order and once each. -/
def otherParties (items : List StatementItem) : List AccountId :=
  (items.filterMap StatementItem.counterpartyId).foldl (fun ids id => insertId id ids) []

/-- The last summary of an account. -/
def summaryOf (summaries : List AccountSummary) (id : AccountId) : Option AccountSummary :=
  summaries.reverse.find? fun s => s.account = id

/-- The items with the summaries of the other customers. -/
def withSummaries (summaries : List AccountSummary) (items : List StatementItem) :
    List StatementItem :=
  items.map fun i => match i.counterpartyId with
    | some id => { i with counterparty := summaryOf summaries id }
    | none => i

/-- Adds the names of the other customers, if there are any and the accounts service gives them. -/
def enrich {α : Type} (items : List StatementItem) (k : List StatementItem → Program α) :
    Program α :=
  match otherParties items with
  | [] => k items
  | ids => .ask (.accounts (.summaries ids)) fun found =>
    match found with
    | .ok summaries => k (withSummaries summaries items)
    | .error _ => k items

/-- Records that somebody looked at a statement. -/
def looked (c : StatementCommand) (at_ : Instant) : AuditRecord where
  action := "ledger.statement"
  entity := "accounts"
  entityId := c.listing.account.toText
  actor := "system"
  at_ := at_
  details := .record [
    ("from", c.listing.start.toJson),
    ("to", c.listing.stop.toJson),
    ("page", .nat c.listing.page),
    ("size", .nat c.listing.size),
    ("include_counterparty", .bool c.includeCounterparty)]

/-- Ends a statement with the record that somebody looked at it. -/
def finish (c : StatementCommand) (items : List StatementItem) :
    Program (Except ServiceError StatementPage) :=
  .ask .now fun at_ =>
  .ask (.audit (looked c at_)) fun _ =>
  .answer ⟨items, c.listing.page, c.listing.size⟩

/-- Lists the statement of an account. -/
def statement (account : String) (q : StatementQuery) :
    Program (Except ServiceError StatementPage) :=
  match StatementCommand.ofQuery account q with
  | .error e => .fail e.toService
  | .ok c =>
    .ask (.store (.activity c.listing)) <| .stored fun entries =>
    match entries.mapM fun e => StatementLine.project e c.listing.account with
    | none => .crash
    | some lines =>
      let items := lines.map StatementItem.ofLine
      if c.includeCounterparty then enrich items (finish c) else finish c items

end Listings

end DoubleEntry
