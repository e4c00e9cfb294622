import DoubleEntry.Chart
import DoubleEntry.Currency
import DoubleEntry.Decimal.Sum
import DoubleEntry.Halt
import DoubleEntry.Instant.Text

/-!
# Journals

A journal entry books one event of one currency in at least two lines. A line carries either a
debit or a credit, never both and never a negative one, and the debits of a journal sum up to its
credits. `ensureBalanced` decides this; it adds from the left and crashes where a sum overflows.

## Main definitions

* `EntryLine`, `JournalStatus`, `JournalEntry`: the parts of a journal.
* `ensureBalanced`: the rule of double entry.
* `JournalEntry.forPayment`, `JournalEntry.forTopUp`: the journals of the two kinds of posting.
-/

namespace DoubleEntry

/-- Where a journal stands. -/
inductive JournalStatus where
  | posted
  | reversed
  | void
deriving DecidableEq

namespace JournalStatus

/-- The name of a status. -/
def name : JournalStatus → String
  | posted => "posted"
  | reversed => "reversed"
  | void => "void"

/-- Names and statuses. -/
def names : List (String × JournalStatus) :=
  [posted, reversed, void].map fun s => (s.name, s)

/-- The status of a name. -/
def ofName (raw : String) : Except DomainError JournalStatus :=
  match names.lookup raw with
  | some s => .ok s
  | none => .error (.validation (.unknownJournalStatus raw))

end JournalStatus

/-- A line of a journal: an amount on one side of an account. -/
structure EntryLine where
  id : Uuid
  journalId : JournalId
  glAccount : GlAccount
  /-- The customer whose money moves, if it is one. -/
  counterparty : Option AccountId
  debit : Decimal
  credit : Decimal
deriving DecidableEq

/-- A journal entry. -/
structure JournalEntry where
  id : JournalId
  externalRef : String
  bookedAt : Instant
  createdBy : String
  status : JournalStatus
  currency : Currency
  lines : List EntryLine
deriving DecidableEq

/-- A line that debits an account. -/
def EntryLine.ofDebit (id : Uuid) (journal : JournalId) (account : GlAccount)
    (counterparty : Option AccountId) (amount : Decimal) : EntryLine :=
  ⟨id, journal, account, counterparty, amount, .zero⟩

/-- A line that credits an account. -/
def EntryLine.ofCredit (id : Uuid) (journal : JournalId) (account : GlAccount)
    (counterparty : Option AccountId) (amount : Decimal) : EntryLine :=
  ⟨id, journal, account, counterparty, .zero, amount⟩

/-- Checks the lines from the given index on and adds them to the totals of the earlier ones. -/
def checkLines : (index : Nat) → (debit credit : Decimal) → List EntryLine →
    Except (Halt DomainError) (Decimal × Decimal)
  | _, debit, credit, [] => .ok (debit, credit)
  | i, debit, credit, l :: ls =>
    if l.debit.negative || l.credit.negative then Halt.refuse (.invalidLine (.negative i))
    else if l.debit.isZero == l.credit.isZero then Halt.refuse (.invalidLine (.notOneSided i))
    else do
      let debit ← Halt.orCrash (debit.add l.debit)
      let credit ← Halt.orCrash (credit.add l.credit)
      checkLines (i + 1) debit credit ls

/-- The rule of double entry: at least two lines, each with one positive side, and equal totals. -/
def ensureBalanced (lines : List EntryLine) : Except (Halt DomainError) Unit :=
  if lines.length < 2 then Halt.refuse (.invalidLine .tooFew)
  else do
    let (debit, credit) ← checkLines 0 .zero .zero lines
    if debit.sameValue credit then .ok () else Halt.refuse (.unbalanced debit credit)

namespace JournalEntry

/-- A posted journal of balanced lines. -/
def posted (id : JournalId) (externalRef : String) (bookedAt : Instant) (createdBy : String)
    (currency : Currency) (lines : List EntryLine) : Except (Halt DomainError) JournalEntry := do
  ensureBalanced lines
  return ⟨id, externalRef, bookedAt, createdBy, .posted, currency, lines⟩

/-- The reference of the journal of a payment. -/
def paymentRef (payment : PaymentId) : String := "payment:" ++ payment.toText

/-- The journal of a payment from one customer to another. -/
def forPayment (id : JournalId) (lineIds : Uuid × Uuid) (payment : PaymentId)
    (source destination : AccountId) (currency : Currency) (amount : Decimal) (bookedAt : Instant)
    (createdBy : String) : Except (Halt DomainError) JournalEntry :=
  posted id (paymentRef payment) bookedAt createdBy currency
    [.ofDebit lineIds.1 id .outgoing (some source) amount,
      .ofCredit lineIds.2 id .incoming (some destination) amount]

/-- The journal of a top-up of a customer from the system's fund. -/
def forTopUp (id : JournalId) (lineIds : Uuid × Uuid) (account : AccountId) (currency : Currency)
    (amount : Decimal) (externalRef : String) (bookedAt : Instant) (createdBy : String) :
    Except (Halt DomainError) JournalEntry :=
  posted id externalRef bookedAt createdBy currency
    [.ofDebit lineIds.1 id .systemFund none amount,
      .ofCredit lineIds.2 id .customerCash (some account) amount]

/-- The sum of the debits. -/
def totalDebit (j : JournalEntry) : Option Decimal := Decimal.sum (j.lines.map EntryLine.debit)

/-- The sum of the credits. -/
def totalCredit (j : JournalEntry) : Option Decimal := Decimal.sum (j.lines.map EntryLine.credit)

end JournalEntry

end DoubleEntry
