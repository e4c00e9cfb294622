import DoubleEntry.Proofs.StoredPostings
import DoubleEntry.Proofs.StoredViews
import DoubleEntry.Proofs.Units

/-!
# The balance of what is posted

The lines of a posted journal are few, and their amounts are below a bound, so no sum over them
leaves its range: a journal is balanced or refused, and never crashes.  The two sums of a balanced
journal are the same number of millionths.

## Main results

* `EntryLine.ensureBalanced_cases`: lines that rows can hold are refused, or their sides are of one
  sum.
* `Decimal.exists_sum`: the sum of a few amounts is exact.
* `JournalEntry.posted_ne_crashed`: a journal is refused or posted.
-/

namespace DoubleEntry

open StatementLine

namespace Decimal

theorem IsTotal.exists_foldlM {ds : List Decimal} (h : ∀ d ∈ ds, d.IsStored) {n : Nat} {s : Int}
    {a : Decimal} (hn : n + ds.length ≤ ManualCommand.maxLines) (ha : a.IsTotal n s) :
    ∃ d, ds.foldlM add a = some d ∧ d.IsTotal (n + ds.length) (s + (ds.map millionths).sum) := by
  induction ds generalizing n s a with
  | nil => exact ⟨a, rfl, by simpa using ha⟩
  | cons b ds ih =>
    obtain ⟨hb, hds⟩ := List.forall_mem_cons.1 h
    rw [List.length_cons] at hn ⊢
    obtain ⟨c, hc, htotal⟩ := ha.exists_add hb (by omega)
    obtain ⟨d, hd, htotal⟩ := ih hds (by omega) htotal
    refine ⟨d, by rw [List.foldlM_cons, hc]; exact hd, ?_⟩
    rwa [List.map_cons, List.sum_cons, Nat.add_comm ds.length, ← Nat.add_assoc, ← Int.add_assoc]

/-- **The sum of a few amounts** is exact. -/
theorem exists_sum {ds : List Decimal} (h : ∀ d ∈ ds, d.IsStored)
    (hfew : ds.length ≤ ManualCommand.maxLines) :
    ∃ d, sum ds = some d ∧ d.IsTotal ds.length (ds.map millionths).sum := by
  obtain ⟨d, hd, htotal⟩ := isTotal_zero.exists_foldlM h (by simpa using hfew)
  exact ⟨d, hd, by simpa using htotal⟩

end Decimal

namespace EntryLine

variable {lines : List EntryLine} {journal : JournalId}

theorem checkLines_cases (h : ∀ l ∈ lines, l.IsStored journal) {n : Nat}
    (hn : n + lines.length ≤ ManualCommand.maxLines) {s t : Int} {a b : Decimal}
    (ha : a.IsTotal n s) (hb : b.IsTotal n t) (index : Nat) :
    (∃ e, checkLines index a b lines = .error (.refused e)) ∨
      ∃ c d, checkLines index a b lines = .ok (c, d) ∧
        c.IsTotal (n + lines.length) (s + sumOf (·.debit) lines) ∧
        d.IsTotal (n + lines.length) (t + sumOf (·.credit) lines) := by
  induction lines generalizing n s t a b index with
  | nil => exact .inr ⟨a, b, rfl, by simpa [sumOf] using ha, by simpa [sumOf] using hb⟩
  | cons l lines ih =>
    obtain ⟨hl, hlines⟩ := List.forall_mem_cons.1 h
    rw [List.length_cons] at hn
    obtain ⟨a', ha', htotal⟩ := ha.exists_add hl.debit (by omega)
    obtain ⟨b', hb', htotal'⟩ := hb.exists_add hl.credit (by omega)
    rw [checkLines]
    split_ifs
    · exact .inl ⟨_, rfl⟩
    · exact .inl ⟨_, rfl⟩
    · simp only [ha', hb', Halt.orCrash, bind, Except.bind]
      obtain hrefused | ⟨c, d, hcd, hc, hd⟩ := ih hlines (by omega) htotal htotal' (index + 1)
      · exact .inl hrefused
      · exact .inr ⟨c, d, hcd, isTotal_cons hc, isTotal_cons hd⟩

/-- **The rule of double entry** refuses the lines, or their sides are of one sum. -/
theorem ensureBalanced_cases (h : ∀ l ∈ lines, l.IsStored journal)
    (hfew : lines.length ≤ ManualCommand.maxLines) :
    (∃ e, ensureBalanced lines = .error (.refused e)) ∨
      ensureBalanced lines = .ok () ∧ sumOf (·.debit) lines = sumOf (·.credit) lines := by
  rw [ensureBalanced]
  split_ifs
  · exact .inl ⟨_, rfl⟩
  · obtain ⟨e, he⟩ | ⟨c, d, hcd, hc, hd⟩ := checkLines_cases h (n := 0) (by simpa using hfew)
      Decimal.isTotal_zero Decimal.isTotal_zero 0
    · exact .inl ⟨e, by rw [he]; rfl⟩
    · simp only [hcd, bind, Except.bind]
      split_ifs with hsame
      · refine .inr ⟨rfl, ?_⟩
        rw [Decimal.sameValue_iff_millionths hc.six hd.six, hc.millionths_eq, hd.millionths_eq]
          at hsame
        simpa using hsame
      · exact .inl ⟨_, rfl⟩

end EntryLine

namespace JournalEntry

variable {id : JournalId} {ref createdBy : String} {bookedAt : Instant} {currency : Currency}
  {lines : List EntryLine}

theorem posted_ne_crashed (h : ∀ l ∈ lines, l.IsStored id)
    (hfew : lines.length ≤ ManualCommand.maxLines) :
    posted id ref bookedAt createdBy currency lines ≠ .error .crashed := by
  obtain ⟨e, he⟩ | ⟨hok, -⟩ := EntryLine.ensureBalanced_cases h hfew
  · rw [posted, he]
    rintro ⟨⟩
  · rw [posted, hok]
    rintro ⟨⟩

theorem posted_pair_ne_crashed {amount : Decimal} (hamount : amount.IsStored)
    (lineIds : Uuid × Uuid) (debited credited : GlAccount) (source destination : Option AccountId) :
    posted id ref bookedAt createdBy currency [.ofDebit lineIds.1 id debited source amount,
      .ofCredit lineIds.2 id credited destination amount] ≠ .error .crashed :=
  posted_ne_crashed (EntryLine.isStored_pair hamount) EntryLine.length_pair_le

end JournalEntry

end DoubleEntry
