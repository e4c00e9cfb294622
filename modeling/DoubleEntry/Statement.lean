import DoubleEntry.Journal.Basic
import DoubleEntry.Decimal.Text

/-!
# Statements

A statement shows a journal from the side of one customer: what it credits less what it debits on
the customer's lines, and the first other customer that it names.

## Main definitions

* `StatementLine.project`: a journal seen from an account; a crash where a sum overflows.
* `StatementKind.ofMemo`: the kind of a posting, told by its reference.
-/

namespace DoubleEntry

/-- Whether money came or went. -/
inductive Direction where
  | credit
  | debit
deriving DecidableEq

namespace Direction

/-- The name of a direction. -/
def name : Direction → String
  | credit => "credit"
  | debit => "debit"

/-- Names and directions. -/
def names : List (String × Direction) := [credit, debit].map fun d => (d.name, d)

end Direction

/-- What kind of posting a statement shows. -/
inductive StatementKind where
  | transfer
  | bonus
  | other
deriving DecidableEq

namespace StatementKind

/-- The name of a kind. -/
def name : StatementKind → String
  | transfer => "transfer"
  | bonus => "bonus"
  | other => "other"

/-- Names and kinds. -/
def names : List (String × StatementKind) := [transfer, bonus, other].map fun k => (k.name, k)

/-- The text occurs somewhere in the characters. -/
def occursIn (part : List Char) : List Char → Bool
  | [] => part.isEmpty
  | c :: cs => part.isPrefixOf (c :: cs) || occursIn part cs

/-- The kind of a posting, told by its reference. -/
def ofMemo (memo : String) : StatementKind :=
  let cs := memo.toList
  if "payment:".toList.isPrefixOf cs then transfer
  else if "bonus:".toList.isPrefixOf cs || occursIn "registration_bonus".toList cs then bonus
  else other

end StatementKind

/-- A line of a statement. -/
structure StatementLine where
  journalId : JournalId
  bookedAt : Instant
  currency : Currency
  direction : Direction
  amount : Decimal
  kind : StatementKind
  memo : String
  counterparty : Option AccountId
deriving DecidableEq

namespace StatementLine

/-- The credits and debits of the lines of an account. -/
def totals (account : AccountId) (lines : List EntryLine) : Option (Decimal × Decimal) :=
  (lines.filter fun l => l.counterparty = some account).foldlM (fun (credit, debit) l => do
    return (← credit.add l.credit, ← debit.add l.debit)) (.zero, .zero)

/-- The first customer of the lines that is not the account. -/
def otherParty (account : AccountId) (lines : List EntryLine) : Option AccountId :=
  (lines.filterMap EntryLine.counterparty).find? fun a => a ≠ account

/-- The journal seen from an account; a net amount of nought counts as a credit. -/
def project (entry : JournalEntry) (account : AccountId) : Option StatementLine := do
  let (credit, debit) ← totals account entry.lines
  let net ← credit.sub debit
  let owed := net.negative && !net.isZero
  return ⟨entry.id, entry.bookedAt, entry.currency, if owed then .debit else .credit,
    if owed then net.abs else net, StatementKind.ofMemo entry.externalRef, entry.externalRef,
    otherParty account entry.lines⟩

end StatementLine

end DoubleEntry
