import DoubleEntry.Proofs.EncodedInserts
import DoubleEntry.Proofs.PostingTrace

/-!
# Postings can be stored

The amounts of a command have six places at most and twenty digits before the point, and a journal
has a hundred lines at most.  So rows can hold all that a posting writes, if it is made at a whole
microsecond.

## Main results

* `PaymentCommand.isStored_amount` and the like: rows can hold the amounts of a command.
* `PaymentCommand.isStored_rows`, `CreditCommand.isStored_rows`, `ManualCommand.isStored_rows`: rows
  can hold the postings.
-/

namespace DoubleEntry

/-! ### Commands -/

theorem PaymentCommand.isStored_amount {r : PaymentRequest} {c : PaymentCommand}
    (h : ofRequest r = .ok c) : c.amount.IsStored :=
  Field.isStored_of_amount (ofRequest_eq_ok_iff.1 h).amount

theorem CreditCommand.isStored_amount {r : CreditRequest} {c : CreditCommand}
    (h : ofRequest r = .ok c) : c.amount.IsStored :=
  Field.isStored_of_amount (ofRequest_eq_ok_iff.1 h).amount

namespace ManualLine

/-- Rows can hold both sides of the line. -/
structure IsStored (l : ManualLine) : Prop where
  debit : l.debit.IsStored
  credit : l.credit.IsStored

theorem isStored_side {index : Nat} {name : String} {raw : Option String} {d : Decimal}
    (h : side index name raw = .ok d) : d.IsStored := by
  unfold side at h
  split at h
  · cases h
    exact Decimal.isStored_zero
  · split_ifs at h
    · cases h
      exact Decimal.isStored_zero
    · exact Field.isStored_of_decimal h

theorem isStored_of_ofRequest {index : Nat} {r : ManualLineRequest} {l : ManualLine}
    (h : ofRequest index r = .ok l) : l.IsStored := by
  have hreads := ofRequest_eq_ok_iff.1 h
  exact ⟨isStored_side hreads.debit, isStored_side hreads.credit⟩

theorem isStored_of_ofRequests {index : Nat} {rs : List ManualLineRequest} {ls : List ManualLine}
    (h : ofRequests index rs = .ok ls) : (∀ l ∈ ls, l.IsStored) ∧ ls.length = rs.length := by
  induction rs generalizing index ls with
  | nil =>
    cases h
    exact ⟨List.forall_mem_nil _, rfl⟩
  | cons r rs ih =>
    obtain ⟨l, hl, h⟩ := exists_of_bind_eq_ok h
    obtain ⟨ls', hls, h⟩ := exists_of_bind_eq_ok h
    cases h
    obtain ⟨hstored, hlen⟩ := ih hls
    exact ⟨List.forall_mem_cons.2 ⟨isStored_of_ofRequest hl, hstored⟩, congrArg (· + 1) hlen⟩

end ManualLine

theorem ManualCommand.isStored_lines {r : ManualRequest} {c : ManualCommand}
    (h : ofRequest r = .ok c) : (∀ l ∈ c.lines, l.IsStored) ∧ c.lines.length ≤ maxLines := by
  have hreads := ofRequest_eq_ok_iff.1 h
  obtain ⟨hstored, hlen⟩ := ManualLine.isStored_of_ofRequests hreads.lines
  exact ⟨hstored, hlen.trans_le hreads.few⟩

/-! ### Rows -/

theorem OutboxEvent.isStored_pending {id : EventId} {type eventType : String} {aggregate : Uuid}
    {payload : Json} {now : Instant} (hpayload : payload.IsStored) (hnow : now.IsWhole) :
    (pending id type aggregate eventType payload now).IsStored :=
  ⟨hpayload, by rintro i ⟨⟩, by rintro i ⟨⟩, hnow⟩

theorem IdempotencyRecord.isStored_of {key operation : String} {response : Json} {now : Instant}
    (hnow : now.IsWhole) : (IdempotencyRecord.of key operation response now).IsStored :=
  ⟨by simp [IdempotencyRecord.of], hnow⟩

theorem EntryLine.isStored_ofDebit {id : Uuid} {journal : JournalId} {account : GlAccount}
    {other : Option AccountId} {amount : Decimal} (h : amount.IsStored) :
    (ofDebit id journal account other amount).IsStored journal :=
  ⟨rfl, h, Decimal.isStored_zero⟩

theorem EntryLine.isStored_ofCredit {id : Uuid} {journal : JournalId} {account : GlAccount}
    {other : Option AccountId} {amount : Decimal} (h : amount.IsStored) :
    (ofCredit id journal account other amount).IsStored journal :=
  ⟨rfl, Decimal.isStored_zero, h⟩

theorem EntryLine.isStored_pair {debitLine creditLine : Uuid} {journal : JournalId}
    {debited credited : GlAccount} {source destination : Option AccountId} {amount : Decimal}
    (h : amount.IsStored) : ∀ l ∈ [ofDebit debitLine journal debited source amount,
      ofCredit creditLine journal credited destination amount], l.IsStored journal :=
  List.forall_mem_cons.2 ⟨isStored_ofDebit h, List.forall_mem_singleton.2 (isStored_ofCredit h)⟩

theorem EntryLine.length_pair_le {l l' : EntryLine} : [l, l'].length ≤ ManualCommand.maxLines := by
  show 2 ≤ 100
  decide

/-- **Rows can hold a journal of one amount**, debited to one account and credited to another. -/
theorem JournalEntry.isStored_of_posted {id : JournalId} {ref createdBy : String}
    {bookedAt : Instant} {currency : Currency} {debitLine creditLine : Uuid}
    {debited credited : GlAccount} {source destination : Option AccountId} {amount : Decimal}
    {entry : JournalEntry}
    (hamount : amount.IsStored) (hbooked : bookedAt.IsWhole)
    (h : posted id ref bookedAt createdBy currency [.ofDebit debitLine id debited source amount,
      .ofCredit creditLine id credited destination amount] = .ok entry) : entry.IsStored := by
  obtain ⟨rfl, -⟩ := posted_eq_ok h
  exact ⟨hbooked, EntryLine.isStored_pair hamount, EntryLine.length_pair_le⟩

namespace PaymentCommand

variable {c : PaymentCommand} {id : PaymentId} {journal : JournalId} {event : EventId}
  {now : Instant} {entry : JournalEntry}

theorem isStored_steps (hnow : now.IsWhole) : ∀ s ∈ steps id journal now, s.IsStored := by
  have hhold : (Json.record [("hold_id", id.toJson)]).IsStored :=
    Json.isStored_record (List.forall_mem_singleton.2 trivial)
  have hpost : (Json.record [("journal_id", journal.toJson), ("hold_id", id.toJson)]).IsStored :=
    Json.isStored_record (List.forall_mem_cons.2 ⟨trivial, List.forall_mem_singleton.2 trivial⟩)
  exact List.forall_mem_cons.2 ⟨⟨hhold, hnow⟩, List.forall_mem_singleton.2 ⟨hpost, hnow⟩⟩

/-- **Rows can hold a payment** that is posted. -/
theorem isStored_rows (hamount : c.amount.IsStored) (hnow : now.IsWhole) (hentry : entry.IsStored) :
    ∀ row ∈ c.rows id entry event now, row.IsStored := by
  have hpayload : (c.payload id entry.id now).IsStored :=
    Json.isStored_record (by simp [Json.IsAtom, Uuid.toJson, Currency.toJson])
  have hsteps : ∀ row ∈ (steps id entry.id now).map Row.step, row.IsStored :=
    List.forall_mem_map.2 (isStored_steps hnow)
  rw [rows, List.cons_append, List.cons_append, List.forall_mem_cons, List.forall_mem_cons,
    List.forall_mem_append, List.forall_mem_cons, List.forall_mem_singleton]
  exact ⟨⟨hamount, hnow, hnow⟩, hentry, hsteps, OutboxEvent.isStored_pending hpayload hnow,
    IdempotencyRecord.isStored_of hnow⟩

end PaymentCommand

theorem CreditCommand.isStored_rows {c : CreditCommand} {event : EventId} {now : Instant}
    {entry : JournalEntry} (hnow : now.IsWhole) (hentry : entry.IsStored) :
    ∀ row ∈ c.rows entry event now, row.IsStored := by
  have hpayload : (c.payload entry.id now).IsStored :=
    Json.isStored_record (by simp [Json.IsAtom, Uuid.toJson, Currency.toJson])
  rw [rows, List.forall_mem_cons, List.forall_mem_cons, List.forall_mem_singleton]
  exact ⟨hentry, OutboxEvent.isStored_pending hpayload hnow, IdempotencyRecord.isStored_of hnow⟩

namespace ManualCommand

variable {c : ManualCommand} {journal : JournalId} {event : EventId} {now : Instant}
  {entry : JournalEntry} {total : Decimal} {ids : List Uuid}

theorem isStored_entryLines (hlines : ∀ l ∈ c.lines, l.IsStored) :
    ∀ l ∈ c.entryLines journal ids, l.IsStored journal :=
  List.forall_mem_map.2 fun x hx =>
    ⟨rfl, (hlines x.2 (List.of_mem_zip hx).2).debit, (hlines x.2 (List.of_mem_zip hx).2).credit⟩

theorem length_entryLines_le : (c.entryLines journal ids).length ≤ c.lines.length := by
  simp only [entryLines, List.length_map, List.length_zip]
  omega

/-- **Rows can hold a journal of given lines.** -/
theorem isStored_of_posted (hlines : ∀ l ∈ c.lines, l.IsStored) (hfew : c.lines.length ≤ maxLines)
    (hnow : now.IsWhole) (h : JournalEntry.posted journal c.externalRef now c.initiatedBy c.currency
      (c.entryLines journal ids) = .ok entry) : entry.IsStored := by
  obtain ⟨rfl, -⟩ := JournalEntry.posted_eq_ok h
  exact ⟨hnow, isStored_entryLines hlines, length_entryLines_le.trans hfew⟩

theorem isStored_rows (hnow : now.IsWhole) (hentry : entry.IsStored) :
    ∀ row ∈ c.rows entry total event now, row.IsStored := by
  have hcount : (Json.nat entry.lines.length).IsAtom := by
    refine ⟨by omega, ?_⟩
    have hfew : entry.lines.length ≤ 100 := hentry.few
    have : (100 : Int) < twoPow 64 := by decide
    omega
  have hpayload : (c.payload entry total now).IsStored :=
    Json.isStored_record (by simp [Json.isAtom_str, hcount, Uuid.toJson, Currency.toJson])
  rw [rows, List.forall_mem_cons, List.forall_mem_singleton]
  exact ⟨hentry, OutboxEvent.isStored_pending hpayload hnow⟩

end ManualCommand

end DoubleEntry
