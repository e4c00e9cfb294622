import DoubleEntry.Service.Payments

/-!
# Postings without a payment

An account is topped up from the system's fund, once for each key. A journal of given lines is
posted as often as it is asked for. Both are written together with their event.

## Main definitions

* `Postings.credit`: a top-up. `Postings.postManual`: a journal of given lines.
-/

namespace DoubleEntry

/-- The answer to a posted journal. -/
def JournalPosted.of (journal : JournalId) : JournalPosted := ⟨journal, "posted"⟩

namespace CreditCommand

/-- What the event of a top-up says. -/
def payload (c : CreditCommand) (journal : JournalId) (now : Instant) : Json := .record [
  ("journal_id", journal.toJson),
  ("account_id", c.account.toJson),
  ("currency", c.currency.toJson),
  ("amount", .str c.amount.amountText),
  ("occurred_at", .str now.nanoText)]

/-- What is written for a top-up with its journal. -/
def rows (c : CreditCommand) (journal : JournalEntry) (event : EventId) (now : Instant) :
    List Row :=
  [.journal journal,
    .event (.pending event "ledger" journal.id OutboxEvent.ledgerPosted (c.payload journal.id now)
      now),
    .record (.of c.key IdempotencyRecord.creditAccount (JournalPosted.of journal.id).toJson now)]

end CreditCommand

namespace ManualCommand

/-- The lines of the journal, under fresh identifiers. -/
def entryLines (journal : JournalId) (c : ManualCommand) (ids : List Uuid) : List EntryLine :=
  (ids.zip c.lines).map fun (id, l) => ⟨id, journal, l.glAccount, l.counterparty, l.debit, l.credit⟩

/-- What the event of a journal says. -/
def payload (c : ManualCommand) (journal : JournalEntry) (total : Decimal) (now : Instant) : Json :=
  .record [
    ("journal_id", journal.id.toJson),
    ("currency", c.currency.toJson),
    ("total", .str total.amountText),
    ("line_count", .nat journal.lines.length),
    ("external_ref", .str c.externalRef),
    ("created_by", .str c.initiatedBy),
    ("occurred_at", .str now.nanoText)]

/-- What is written for a journal. -/
def rows (c : ManualCommand) (journal : JournalEntry) (total : Decimal) (event : EventId)
    (now : Instant) : List Row :=
  [.journal journal, .event (.pending event "ledger" journal.id OutboxEvent.manualPosted
    (c.payload journal total now) now)]

end ManualCommand

namespace Postings

/-- Looks for an earlier answer to the key of a top-up. -/
def unlessCredited (c : CreditCommand) :
    Program (Except ServiceError JournalPosted) → Program (Except ServiceError JournalPosted) :=
  Payments.unlessAnswered c.key IdempotencyRecord.creditAccount JournalPosted.decoder

/-- Records that an account was topped up, and answers. -/
def concludeCredit (c : CreditCommand) (journal : JournalId) (now : Instant) :
    Program (Except ServiceError JournalPosted) :=
  let details := Json.record [("account_id", c.account.toJson), ("currency", c.currency.toJson),
    ("amount", .str c.amount.amountText)]
  .ask (.audit (.of "ledger.credit" c.resource journal.toText now details)) fun _ =>
  .answer (.of journal)

/-- Writes a top-up that the accounts service has given leave for. -/
def persistCredit (c : CreditCommand) : Program (Except ServiceError JournalPosted) :=
  .ask .now fun now =>
  .ask .freshId fun journal =>
  .ask .freshId fun debitLine =>
  .ask .freshId fun creditLine =>
  .ofHalt (JournalEntry.forTopUp journal (debitLine, creditLine) c.account c.currency c.amount
      c.externalRef now c.initiatedBy) (fun e => .fail e.toService) fun entry =>
  .ask .freshId fun event =>
  .ask (.store (.post (c.rows entry event now))) fun written =>
  match written with
  | .ok _ => concludeCredit c journal now
  | .error (.conflict text) => unlessCredited c (.fail (.conflict text))
  | .error e => .fail e.toService

/-- Carries out a command to top up an account. -/
def runCredit (c : CreditCommand) : Program (Except ServiceError JournalPosted) :=
  unlessCredited c <| Payments.whenValid c.account c.account c.currency c.amount <| persistCredit c

/-- Tops up an account. -/
def credit (r : CreditRequest) : Program (Except ServiceError JournalPosted) :=
  match CreditCommand.ofRequest r with
  | .ok c => runCredit c
  | .error e => .fail e.toService

/-- Fresh identifiers, as many as asked for. -/
def freshIds {α : Type} : (count : Nat) → (List Uuid → Program α) → Program α
  | 0, k => k []
  | n + 1, k => .ask .freshId fun id => freshIds n fun ids => k (id :: ids)

/-- Writes a journal of given lines. -/
def persistManual (c : ManualCommand) (now : Instant) (journal : JournalId) (ids : List Uuid) :
    Program (Except ServiceError JournalPosted) :=
  .ofHalt (JournalEntry.posted journal c.externalRef now c.initiatedBy c.currency
      (c.entryLines journal ids)) (fun e => .fail e.toService) fun entry =>
  .ofHalt (ε := Unit) (Halt.orCrash entry.totalDebit) (fun _ => .crash) fun total =>
  .ask .freshId fun event =>
  .ask (.store (.post (c.rows entry total event now))) <| .stored fun _ =>
  let details := Json.record [("currency", c.currency.toJson), ("total", .str total.amountText),
    ("line_count", .nat c.lines.length)]
  .ask (.audit (.of "ledger.manual_entry" c.resource journal.toText now details)) fun _ =>
  .answer (.of journal)

/-- Carries out a command to post a journal of given lines. -/
def runManual (c : ManualCommand) : Program (Except ServiceError JournalPosted) :=
  .ask .now fun now =>
  .ask .freshId fun journal =>
  freshIds c.lines.length (persistManual c now journal)

/-- Posts a journal of given lines. -/
def postManual (r : ManualRequest) : Program (Except ServiceError JournalPosted) :=
  match ManualCommand.ofRequest r with
  | .ok c => runManual c
  | .error e => .fail e.toService

end Postings

end DoubleEntry
