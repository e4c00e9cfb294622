import DoubleEntry.Proofs.Amount
import DoubleEntry.Proofs.KeptAnswer
import DoubleEntry.Proofs.Posting

/-!
# The tables agree

In every state that jobs reach from an empty store, whatever happens around them and in whatever
order, the five tables agree (`Ledger.tables_agree`).  Each posting has written its rows as one, and
no two postings share a journal, a payment or a key; so what is asked of the rows of all is found
among the rows of one.

## Main definitions

* `OutboxEvent.names`: an event names an identifier.
* `JournalEntry.Books`, `OutboxEvent.Tells`: a journal and an event of a payment.
* `Payment.IsPosted`, `IdempotencyRecord.IsBooked`: all that belongs to a payment and to a top-up.
* `Memory.Agrees`: the tables agree.
-/

namespace DoubleEntry

/-- The event names an identifier in a field of its payload. -/
def OutboxEvent.names (e : OutboxEvent) (field : String) (u : Uuid) : Bool :=
  (e.payload.field? field).bind Json.text? == some u.toText

theorem OutboxEvent.names_bare (e : OutboxEvent) : e.bare.names = e.names := rfl

theorem OutboxEvent.names_iff {e : OutboxEvent} {field : String} {u v : Uuid}
    (h : e.payload.field? field = some u.toJson) : e.names field v = true ↔ u = v := by
  simp [names, h, Uuid.toJson, Json.text?]

namespace Posting

theorem names_journal {P : Posting} {e : OutboxEvent} (he : e ∈ P.table Row.event?) (u : Uuid) :
    e.names "journal_id" u = true ↔ P.entry.id = u := by
  cases P with
  | payment c id entry event now _ _ =>
    refine OutboxEvent.names_iff ?_
    rw [List.mem_singleton.1 he]
    simp [OutboxEvent.pending, PaymentCommand.payload, Json.field?_record, List.lookup_cons,
      Posting.entry]
  | topUp c entry event now _ =>
    refine OutboxEvent.names_iff ?_
    rw [List.mem_singleton.1 he]
    simp [OutboxEvent.pending, CreditCommand.payload, Json.field?_record, List.lookup_cons,
      Posting.entry]
  | journal c entry total event now =>
    refine OutboxEvent.names_iff ?_
    rw [List.mem_singleton.1 he]
    simp [OutboxEvent.pending, ManualCommand.payload, Json.field?_record, List.lookup_cons,
      Posting.entry]

/-- The journals of two postings are the same only if the postings are. -/
theorem Fill.only_of_journal {L : List Posting} {m : Memory} {P : Posting} (h : Fill L m)
    (hP : P ∈ L) : ∀ Q ∈ L, ∀ e ∈ Q.table Row.event?,
      e.names "journal_id" P.entry.id = true → Q = P :=
  fun _ hQ _ he hn => h.eq_of_entry hP hQ ((names_journal he _).1 hn)

end Posting

/-- The journal books the amount of a payment: it leaves the source and reaches the destination. -/
structure JournalEntry.Books (j : JournalEntry) (p : Payment) : Prop where
  externalRef : j.externalRef = paymentRef p.id
  currency : j.currency = p.currency
  lines : ∃ debit credit : Uuid, j.lines =
    [.ofDebit debit j.id .outgoing (some p.source) p.amount,
      .ofCredit credit j.id .incoming (some p.destination) p.amount]

/-- The event tells of a payment and its journal. -/
structure OutboxEvent.Tells (e : OutboxEvent) (p : Payment) (journal : JournalId) : Prop where
  aggregateId : e.aggregateId = p.id
  source : e.payload.field? "source_account_id" = some p.source.toJson
  destination : e.payload.field? "destination_account_id" = some p.destination.toJson
  currency : e.payload.field? "currency" = some p.currency.toJson
  amount : ∃ d : Decimal, e.payload.field? "amount" = some (.str d.toText) ∧
    d.sameValue p.amount = true
  journal : e.names "journal_id" journal = true

/-- A payment is posted, and what belongs to it is in the store once: its journal, its two steps,
the record of its answer, and its event. -/
structure Payment.IsPosted (p : Payment) (m : Memory) (j : JournalEntry) (r : IdempotencyRecord)
    (e : OutboxEvent) : Prop where
  status : p.status = .posted
  journalId : p.journalId = some j.id
  journal : m.journals.filter (fun j' => j'.id = j.id) = [j]
  books : j.Books p
  steps : (m.steps.filter fun s => s.paymentId = p.id).map PaymentStep.step =
    [PaymentStep.reserveHold, PaymentStep.postLedger]
  record : m.records.filter (fun r => r.key = p.idempotencyKey ∧
    r.operation = IdempotencyRecord.postPayment) = [r]
  answer : r.replay IdempotencyRecord.postPayment PaymentPosted.decoder = .ok ⟨p.id, .posted⟩
  event : m.outbox.filter (fun e => e.eventType = OutboxEvent.paymentPosted ∧
    e.names "payment_id" p.id) = [e]
  tells : e.Tells p j.id

namespace PaymentCommand

variable (c : PaymentCommand) (id : PaymentId) (journal : JournalId) (eventId : EventId)
  (now : Instant)

/-- The event of a payment as it was inserted. -/
def event : OutboxEvent :=
  .pending eventId "payment" id OutboxEvent.paymentPosted (c.payload id journal now) now

theorem names_event (u : PaymentId) :
    (c.event id journal eventId now).names "payment_id" u = true ↔ id = u := by
  refine OutboxEvent.names_iff ?_
  simp [event, OutboxEvent.pending, payload, Json.field?_record, List.lookup_cons]

variable {c} in
theorem tells_event (h : c.amount.places ≤ Decimal.amountPlaces) :
    (c.event id journal eventId now).Tells (c.payment id journal now) journal where
  aggregateId := rfl
  source := by
    simp [event, OutboxEvent.pending, payload, payment, Json.field?_record, List.lookup_cons]
  destination := by
    simp [event, OutboxEvent.pending, payload, payment, Json.field?_record, List.lookup_cons]
  currency := by
    simp [event, OutboxEvent.pending, payload, payment, Json.field?_record, List.lookup_cons]
  amount := by
    refine ⟨c.amount.toAmount, ?_, Decimal.sameValue_toAmount h⟩
    simp [event, OutboxEvent.pending, payload, Json.field?_record, List.lookup_cons,
      Decimal.amountText]
  journal := by
    refine (OutboxEvent.names_iff ?_).2 rfl
    simp [event, OutboxEvent.pending, payload, Json.field?_record, List.lookup_cons]

end PaymentCommand

/-- A top-up is booked, and what belongs to its record is in the store once: its journal and its
event. -/
structure IdempotencyRecord.IsBooked (r : IdempotencyRecord) (m : Memory) (j : JournalEntry)
    (e : OutboxEvent) : Prop where
  answer : r.replay creditAccount JournalPosted.decoder = .ok ⟨j.id, "posted"⟩
  journal : m.journals.filter (fun j' => j'.id = j.id) = [j]
  event : m.outbox.filter (fun e => e.eventType = OutboxEvent.ledgerPosted ∧
    e.names "journal_id" j.id) = [e]

namespace Posting

namespace Fill

variable {L : List Posting} {m : Memory}

theorem filter_journals (h : Fill L m) {P : Posting} (hP : P ∈ L) :
    m.journals.filter (fun j => j.id = P.entry.id) = [P.entry] := by
  refine Memory.filter_eq_singleton h.sound.journalIds ?_
  rw [h.journals]
  exact List.mem_flatMap.2 ⟨P, hP, by simp⟩

section

variable {c : PaymentCommand} {id : PaymentId} {journal : JournalId} {lineIds : Uuid × Uuid}
  {entry : JournalEntry} {event : EventId} {now : Instant} {r : PaymentRequest}
  {command : PaymentCommand.ofRequest r = .ok c}
  {booked : JournalEntry.forPayment journal lineIds id c.source c.destination c.currency c.amount
    now c.initiatedBy = .ok entry}

theorem filter_steps (h : Fill L m) (hP : payment c id entry event now command booked ∈ L) :
    m.steps.filter (fun s => s.paymentId = id) = PaymentCommand.steps id entry.id now := by
  rw [h.steps, h.filter_eq hP]
  · show (PaymentCommand.steps id entry.id now).filter (fun s => s.paymentId = id) = _
    simp [PaymentCommand.steps, PaymentStep.succeeded]
  · intro Q hQ s hs hid
    cases Q with
    | topUp _ _ _ _ _ => cases hs
    | journal _ _ _ _ _ => cases hs
    | payment c' id' entry' event' now' command' booked' =>
      have hs : s ∈ PaymentCommand.steps id' entry'.id now' := hs
      have hid' : s.paymentId = id' := by
        simp only [PaymentCommand.steps, List.mem_cons, List.not_mem_nil, or_false] at hs
        rcases hs with rfl | rfl <;> rfl
      refine h.eq_of_payment hP hQ (List.mem_singleton_self _) (List.mem_singleton_self _) ?_
      exact hid'.symm.trans (of_decide_eq_true hid)

theorem filter_records (h : Fill L m) (hP : payment c id entry event now command booked ∈ L) :
    m.records.filter (fun r => r.key = c.key ∧ r.operation = IdempotencyRecord.postPayment) =
      [.of c.key IdempotencyRecord.postPayment (PaymentCommand.answer id).toJson now] := by
  rw [h.records, h.filter_eq hP]
  · show [_].filter _ = _
    simp [IdempotencyRecord.of]
  · intro Q hQ r hr hkey
    exact h.eq_of_record hP hQ (List.mem_singleton_self _) hr (of_decide_eq_true hkey).1

theorem eq_of_event (h : Fill L m) (hP : payment c id entry event now command booked ∈ L)
    {Q : Posting} (hQ : Q ∈ L) {e : OutboxEvent} (he : e ∈ Q.table Row.event?)
    (htype : e.eventType = OutboxEvent.paymentPosted) (hid : e.names "payment_id" id = true) :
    Q = payment c id entry event now command booked := by
  cases Q with
  | topUp c' entry' event' now' booked' =>
    rw [List.mem_singleton.1 he] at htype
    exact absurd htype (by decide : OutboxEvent.ledgerPosted ≠ OutboxEvent.paymentPosted)
  | journal c' entry' total' event' now' =>
    rw [List.mem_singleton.1 he] at htype
    exact absurd htype (by decide : OutboxEvent.manualPosted ≠ OutboxEvent.paymentPosted)
  | payment c' id' entry' event' now' command' booked' =>
    obtain rfl : e = c'.event id' entry'.id event' now' := List.mem_singleton.1 he
    refine h.eq_of_payment hP hQ (List.mem_singleton_self _) (List.mem_singleton_self _) ?_
    exact (PaymentCommand.names_event _ _ _ _ _ _).1 hid

theorem filter_outbox (h : Fill L m) (hP : payment c id entry event now command booked ∈ L) :
    ∃ e, e.bare = c.event id entry.id event now ∧ m.outbox.filter (fun e =>
      e.eventType = OutboxEvent.paymentPosted ∧ e.names "payment_id" id) = [e] := by
  refine h.exists_event hP (fun _ => rfl) (fun Q hQ e he hq => ?_) ?_
  · obtain ⟨htype, hid⟩ := of_decide_eq_true hq
    exact h.eq_of_event hP hQ he htype hid
  · show [c.event id entry.id event now].filter _ = _
    have hid := (c.names_event id entry.id event now id).2 rfl
    have htype : (c.event id entry.id event now).eventType = OutboxEvent.paymentPosted := rfl
    simp [hid, htype]

end

/-- **Every payment is posted** with all that belongs to it. -/
theorem payment_isPosted (h : Fill L m) {p : Payment} (hp : p ∈ m.payments) :
    ∃ j r e, p.IsPosted m j r e := by
  rw [h.payments] at hp
  obtain ⟨P, hP, hp⟩ := List.mem_flatMap.1 hp
  cases P with
  | topUp _ _ _ _ _ => cases hp
  | journal _ _ _ _ _ => cases hp
  | @payment c id journal lineIds entry event now r command booked =>
    obtain rfl : p = c.payment id entry.id now := List.mem_singleton.1 hp
    obtain ⟨e, hbare, hevent⟩ := h.filter_outbox hP
    have tells := PaymentCommand.tells_event id entry.id event now
      (PaymentCommand.places_of_ofRequest command)
    refine ⟨entry, _, e, rfl, rfl, h.filter_journals hP, ?_, ?_, h.filter_records hP,
      IdempotencyRecord.replay_payment c.key id now, hevent, ?_⟩
    · rw [(JournalEntry.posted_eq_ok booked).1]
      exact ⟨rfl, rfl, lineIds.1, lineIds.2, rfl⟩
    · exact congrArg (List.map PaymentStep.step) (h.filter_steps hP)
    · rw [← hbare] at tells
      exact ⟨tells.aggregateId, tells.source, tells.destination, tells.currency, tells.amount,
        tells.journal⟩

theorem exists_of_record (h : Fill L m) {r : IdempotencyRecord} (hr : r ∈ m.records) :
    ∃ P ∈ L, r ∈ P.table Row.record? := by
  rw [h.records] at hr
  exact List.mem_flatMap.1 hr

theorem exists_payment_of_record (h : Fill L m) {r : IdempotencyRecord} (hr : r ∈ m.records)
    (hop : r.operation = IdempotencyRecord.postPayment) :
    ∃ p, m.payments.filter (fun p => p.idempotencyKey = r.key) = [p] ∧
      m.payments.filter (fun p' => p'.id = p.id) = [p] ∧
      r.replay IdempotencyRecord.postPayment PaymentPosted.decoder = .ok ⟨p.id, .posted⟩ := by
  obtain ⟨P, hP, hr⟩ := h.exists_of_record hr
  cases P with
  | topUp c entry event now booked =>
    rw [List.mem_singleton.1 hr] at hop
    exact absurd hop
      (by decide : IdempotencyRecord.creditAccount ≠ IdempotencyRecord.postPayment)
  | journal _ _ _ _ _ => cases hr
  | payment c id entry event now command booked =>
    obtain rfl := List.mem_singleton.1 hr
    have hp : c.payment id entry.id now ∈ m.payments := by
      rw [h.payments]
      exact List.mem_flatMap.2 ⟨_, hP, List.mem_singleton_self _⟩
    have answer := IdempotencyRecord.replay_payment c.key id now
    exact ⟨c.payment id entry.id now, Memory.filter_eq_singleton h.sound.paymentKeys hp,
      Memory.filter_eq_singleton h.sound.paymentIds hp, answer⟩

theorem exists_payment_of_event (h : Fill L m) {e : OutboxEvent} (he : e ∈ m.outbox)
    (htype : e.eventType = OutboxEvent.paymentPosted) :
    ∃ p, m.payments.filter (fun p => e.names "payment_id" p.id) = [p] := by
  obtain ⟨P, hP, he⟩ := h.exists_of_event he
  -- what the event names and what kind it is of are told by the bare event
  have htype : e.bare.eventType = OutboxEvent.paymentPosted := htype
  rw [← e.names_bare]
  generalize e.bare = e at he htype
  cases P with
  | topUp c entry event now booked =>
    rw [List.mem_singleton.1 he] at htype
    exact absurd htype (by decide : OutboxEvent.ledgerPosted ≠ OutboxEvent.paymentPosted)
  | journal c entry total event now =>
    rw [List.mem_singleton.1 he] at htype
    exact absurd htype (by decide : OutboxEvent.manualPosted ≠ OutboxEvent.paymentPosted)
  | payment c id entry event now command booked =>
    obtain rfl : e = c.event id entry.id event now := List.mem_singleton.1 he
    have hp : c.payment id entry.id now ∈ m.payments := by
      rw [h.payments]
      exact List.mem_flatMap.2 ⟨_, hP, List.mem_singleton_self _⟩
    refine ⟨_, Eq.trans ?_ (Memory.filter_eq_singleton h.sound.paymentIds hp)⟩
    refine List.filter_congr fun p _ => ?_
    rw [Bool.eq_iff_iff, PaymentCommand.names_event, decide_eq_true_iff]
    exact eq_comm

theorem exists_filter_names (h : Fill L m) {P : Posting} (hP : P ∈ L) :
    ∃ e, e.bare ∈ P.table Row.event? ∧
      m.outbox.filter (fun e => e.names "journal_id" P.entry.id) = [e] := by
  obtain ⟨e, he⟩ : ∃ e, P.table Row.event? = [e] := by cases P <;> exact ⟨_, rfl⟩
  have hmem : e ∈ P.table Row.event? := by
    rw [he]
    exact List.mem_singleton_self e
  have hn : (P.table Row.event?).filter (fun e => e.names "journal_id" P.entry.id) = [e] := by
    simp [he, (names_journal hmem _).2]
  obtain ⟨e', hbare, hf⟩ := h.exists_event hP (fun _ => rfl) (h.only_of_journal hP) hn
  exact ⟨e', hbare ▸ hmem, hf⟩

theorem exists_event_of_journal (h : Fill L m) {j : JournalEntry} (hj : j ∈ m.journals) :
    ∃ e, m.outbox.filter (fun e => e.names "journal_id" j.id) = [e] := by
  rw [h.journals] at hj
  obtain ⟨P, hP, hj⟩ := List.mem_flatMap.1 hj
  rw [table_journal, List.mem_singleton] at hj
  obtain ⟨e, -, he⟩ := h.exists_filter_names hP
  exact ⟨e, hj ▸ he⟩

theorem topUp_isBooked (h : Fill L m) {c : CreditCommand} {journal : JournalId}
    {lineIds : Uuid × Uuid} {entry : JournalEntry} {event : EventId} {now : Instant}
    {booked : JournalEntry.forTopUp journal lineIds c.account c.currency c.amount c.externalRef now
      c.initiatedBy = .ok entry} (hP : topUp c entry event now booked ∈ L) :
    ∃ e, (IdempotencyRecord.of c.key IdempotencyRecord.creditAccount
      (JournalPosted.of entry.id).toJson now).IsBooked m entry e := by
  obtain ⟨e, hbare, he⟩ := h.exists_filter_names hP
  have htype : e.eventType = OutboxEvent.ledgerPosted :=
    congrArg OutboxEvent.eventType (List.mem_singleton.1 hbare)
  refine ⟨e, IdempotencyRecord.replay_credit c.key entry.id now, h.filter_journals hP, ?_⟩
  have hf := congrArg (List.filter fun e => e.eventType = OutboxEvent.ledgerPosted) he
  simpa [List.filter_filter, htype, Posting.entry] using hf

theorem exists_isBooked_of_record (h : Fill L m) {r : IdempotencyRecord} (hr : r ∈ m.records)
    (hop : r.operation = IdempotencyRecord.creditAccount) : ∃ j e, r.IsBooked m j e := by
  obtain ⟨P, hP, hr⟩ := h.exists_of_record hr
  cases P with
  | payment c id entry event now command booked =>
    rw [List.mem_singleton.1 hr] at hop
    exact absurd hop
      (by decide : IdempotencyRecord.postPayment ≠ IdempotencyRecord.creditAccount)
  | journal _ _ _ _ _ => cases hr
  | topUp c entry event now booked =>
    obtain rfl := List.mem_singleton.1 hr
    exact ⟨entry, h.topUp_isBooked hP⟩

theorem entry_of_answer {P : Posting} {r : IdempotencyRecord} {a : JournalPosted}
    (hr : r ∈ P.table Row.record?)
    (ha : r.replay IdempotencyRecord.creditAccount JournalPosted.decoder = .ok a) :
    P.entry.id = a.journalId := by
  cases P with
  | payment c id entry event now command booked =>
    have hop := IdempotencyRecord.operation_eq_of_replay ha
    rw [List.mem_singleton.1 hr] at hop
    exact absurd hop
      (by decide : IdempotencyRecord.postPayment ≠ IdempotencyRecord.creditAccount)
  | journal _ _ _ _ _ => cases hr
  | topUp c entry event now booked =>
    rw [List.mem_singleton.1 hr, IdempotencyRecord.replay_credit] at ha
    cases ha
    rfl

theorem existsUnique_record_of_event (h : Fill L m) {e : OutboxEvent} (he : e ∈ m.outbox)
    (htype : e.eventType = OutboxEvent.ledgerPosted) :
    ∃! r, r ∈ m.records ∧ ∃ j, r.IsBooked m j e := by
  obtain ⟨P, hP, hbare⟩ := h.exists_of_event he
  have htype' : e.bare.eventType = OutboxEvent.ledgerPosted := htype
  cases P with
  | payment c id entry event now command booked =>
    rw [List.mem_singleton.1 hbare] at htype'
    exact absurd htype' (by decide : OutboxEvent.paymentPosted ≠ OutboxEvent.ledgerPosted)
  | journal c entry total event now =>
    rw [List.mem_singleton.1 hbare] at htype'
    exact absurd htype' (by decide : OutboxEvent.manualPosted ≠ OutboxEvent.ledgerPosted)
  | topUp c entry event now booked =>
    have hname : e.names "journal_id" entry.id = true := by
      rw [← e.names_bare]
      exact (names_journal hbare _).2 rfl
    obtain ⟨e', hb⟩ := h.topUp_isBooked hP
    have hmem : e ∈ m.outbox.filter fun e => e.eventType = OutboxEvent.ledgerPosted ∧
        e.names "journal_id" entry.id := List.mem_filter.2 ⟨he, decide_eq_true ⟨htype, hname⟩⟩
    rw [hb.event, List.mem_singleton] at hmem
    subst hmem
    refine ⟨_, ⟨?_, entry, hb⟩, ?_⟩
    · rw [h.records]
      exact List.mem_flatMap.2 ⟨_, hP, List.mem_singleton_self _⟩
    -- another record with the event answers with the journal of the event
    · rintro r ⟨hr, j, hb'⟩
      obtain ⟨Q, hQ, hr⟩ := h.exists_of_record hr
      have hmem := hb'.event ▸ List.mem_singleton_self e
      have hj : e.names "journal_id" j.id = true := (of_decide_eq_true (List.mem_filter.1 hmem).2).2
      have hPj := (names_journal hbare _).1 (e.names_bare ▸ hj)
      obtain rfl := h.eq_of_entry hP hQ ((entry_of_answer hr hb'.answer).trans hPj.symm)
      exact List.mem_singleton.1 hr

end Fill

end Posting

/-- **The tables agree.**  All that belongs to a payment, a top-up or a journal is in the store
once, and nothing that belongs to none. -/
structure Memory.Agrees (m : Memory) : Prop where
  payments : ∀ p ∈ m.payments, ∃ j r e, p.IsPosted m j r e
  paymentRecords : ∀ r ∈ m.records, r.operation = IdempotencyRecord.postPayment →
    ∃ p, m.payments.filter (fun p => p.idempotencyKey = r.key) = [p] ∧
      m.payments.filter (fun p' => p'.id = p.id) = [p] ∧
      r.replay IdempotencyRecord.postPayment PaymentPosted.decoder = .ok ⟨p.id, .posted⟩
  paymentEvents : ∀ e ∈ m.outbox, e.eventType = OutboxEvent.paymentPosted →
    ∃ p, m.payments.filter (fun p => e.names "payment_id" p.id) = [p]
  topUpRecords : ∀ r ∈ m.records, r.operation = IdempotencyRecord.creditAccount →
    ∃ j e, r.IsBooked m j e
  topUpEvents : ∀ e ∈ m.outbox, e.eventType = OutboxEvent.ledgerPosted →
    ∃! r, r ∈ m.records ∧ ∃ j, r.IsBooked m j e
  journals : ∀ j ∈ m.journals, ∃ e, m.outbox.filter (fun e => e.names "journal_id" j.id) = [e]

/-- **The tables agree** in every state that jobs reach from an empty store. -/
theorem Ledger.tables_agree {ι : Type} [DecidableEq ι] (f : Bool) (jobs : ι → Job)
    (ms : List (Move ι)) : ((start .empty f jobs).after ms).memory.Agrees := by
  obtain ⟨L, h⟩ := exists_fill f jobs ms
  exact {
    payments := fun _ => h.payment_isPosted
    paymentRecords := fun _ => h.exists_payment_of_record
    paymentEvents := fun _ => h.exists_payment_of_event
    topUpRecords := fun _ => h.exists_isBooked_of_record
    topUpEvents := fun _ => h.existsUnique_record_of_event
    journals := fun _ => h.exists_event_of_journal }

/-- Two payments with one key leave the rows of one payment. -/
example : Ledger.race.memory.payments.map Payment.id = [.ofNat 1] ∧
    Ledger.race.memory.records.map IdempotencyRecord.key = ["order-0001"] ∧
    Ledger.race.memory.steps.length = 2 ∧ Ledger.race.memory.journals.length = 1 ∧
    Ledger.race.memory.outbox.length = 1 := by
  decide +kernel

end DoubleEntry
