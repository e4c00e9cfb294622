import DoubleEntry.Proofs.Balance
import DoubleEntry.Proofs.Ledger

/-!
# The journals of a ledger are exact

Whatever jobs have been carried out over a store that was empty at first, each of its journals has
few lines, of amounts that are exact in millionths, and the two sides of the journal are of one sum.

## Main definitions

* `JournalEntry.IsExact`: the amounts of the journal are exact, and it is balanced.

## Main results

* `Ledger.isExact_of_mem`: so is every journal of a ledger.
-/

namespace DoubleEntry

open StatementLine

namespace JournalEntry

/-- The journal has few lines of amounts that are exact in millionths, and its sides are of one
sum. -/
structure IsExact (j : JournalEntry) : Prop where
  lines : ∀ l ∈ j.lines, l.IsStored j.id
  few : j.lines.length ≤ ManualCommand.maxLines
  balanced : sumOf (·.debit) j.lines = sumOf (·.credit) j.lines

variable {id : JournalId} {ref createdBy : String} {bookedAt : Instant} {currency : Currency}
  {entry : JournalEntry}

theorem isExact_of_posted {lines : List EntryLine} (hlines : ∀ l ∈ lines, l.IsStored id)
    (hfew : lines.length ≤ ManualCommand.maxLines)
    (h : posted id ref bookedAt createdBy currency lines = .ok entry) : entry.IsExact := by
  obtain ⟨rfl, hbalanced⟩ := posted_eq_ok h
  obtain ⟨e, he⟩ | ⟨-, hsum⟩ := EntryLine.ensureBalanced_cases hlines hfew
  · rw [he] at hbalanced
    cases hbalanced
  · exact ⟨hlines, hfew, hsum⟩

theorem isExact_of_pair {lineIds : Uuid × Uuid} {debited credited : GlAccount}
    {source destination : Option AccountId} {amount : Decimal} (hamount : amount.IsStored)
    (h : posted id ref bookedAt createdBy currency
      [.ofDebit lineIds.1 id debited source amount,
        .ofCredit lineIds.2 id credited destination amount] = .ok entry) : entry.IsExact :=
  isExact_of_posted (EntryLine.isStored_pair hamount) EntryLine.length_pair_le h

end JournalEntry

theorem Job.Progress.isExact_of_commit {j : Job} {es : List Exchange} {q : Program Job.Reply}
    (h : Job.Progress es j q) {rows : List Row} (hrows : rows ∈ Log.commits es)
    {entry : JournalEntry} (hentry : .journal entry ∈ rows) : entry.IsExact := by
  cases h with
  | payment command progress =>
    obtain ⟨id, _, _, entry', event, now, -, booked, rfl⟩ := progress.of_commit hrows
    obtain rfl : entry = entry' := by
      simpa [PaymentCommand.rows, PaymentCommand.steps] using hentry
    exact JournalEntry.isExact_of_pair (PaymentCommand.isStored_amount command) booked
  | topUp command _ progress =>
    obtain ⟨_, _, entry', event, now, booked, rfl⟩ := progress.of_commit hrows
    obtain rfl : entry = entry' := by simpa [CreditCommand.rows] using hentry
    exact JournalEntry.isExact_of_pair (CreditCommand.isStored_amount command) booked
  | journal command _ progress =>
    obtain ⟨_, _, entry', total, event, now, booked, rfl⟩ := progress.of_commit hrows
    obtain rfl : entry = entry' := by simpa [ManualCommand.rows] using hentry
    obtain ⟨hlines, hfew⟩ := ManualCommand.isStored_lines command
    exact JournalEntry.isExact_of_posted (ManualCommand.isStored_entryLines hlines)
      (ManualCommand.length_entryLines_le.trans hfew) booked
  | plain plain _ _ => simp [(Log.eq_nil_of_plain plain).2.2] at hrows

namespace Ledger

variable {ι : Type} [DecidableEq ι]

/-- **Every journal of a ledger is exact**, whatever jobs were carried out over it. -/
theorem isExact_of_mem (f : Bool) (jobs : ι → Job) (ms : List (Move ι)) {j : JournalEntry}
    (h : j ∈ ((start .empty f jobs).after ms).memory.journals) : j.IsExact := by
  rw [start, Pool.memory_journals] at h
  obtain ⟨row, hrow, hj⟩ : ∃ row ∈ ((start .empty f jobs).after ms).committed,
      Row.journal? row = some j := by simpa [Memory.empty, start] using h
  obtain rfl : row = .journal j := by
    cases row <;> simp_all [Row.journal?]
  obtain ⟨i, rows, hcommit, hmem⟩ := Pool.mem_committed.1 hrow
  exact (progress .empty f jobs ms i).isExact_of_commit hcommit hmem

end Ledger

end DoubleEntry
