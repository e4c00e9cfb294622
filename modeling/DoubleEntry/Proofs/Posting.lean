import DoubleEntry.Proofs.JsonRecord
import DoubleEntry.Proofs.Ledger
import Mathlib.Data.List.Pairwise
import Mathlib.Data.Set.List

/-!
# Postings

All rows that jobs commit are those of postings (`Ledger.exists_postings`).  The tables of a store
that was empty at first are filled by a list of postings, one after another, and rows that belong to
one posting only are found among the rows of this posting (`Posting.Fill.filter_eq`).

## Main definitions

* `Posting`: what is written as one. `Posting.rows`: its rows.
* `Posting.Fill`: the tables hold the rows of some postings, and no others.
-/

namespace DoubleEntry

/-- What is written as one: the rows of a payment, a top-up or a journal of given lines, made of a
command that was checked and a journal that balances. -/
inductive Posting where
  | payment (c : PaymentCommand) (id : PaymentId) {journal : JournalId} {lineIds : Uuid × Uuid}
    (entry : JournalEntry) (event : EventId) (now : Instant) {r : PaymentRequest}
    (command : PaymentCommand.ofRequest r = .ok c)
    (booked : JournalEntry.forPayment journal lineIds id c.source c.destination c.currency c.amount
      now c.initiatedBy = .ok entry)
  | topUp (c : CreditCommand) {journal : JournalId} {lineIds : Uuid × Uuid} (entry : JournalEntry)
    (event : EventId) (now : Instant)
    (booked : JournalEntry.forTopUp journal lineIds c.account c.currency c.amount c.externalRef now
      c.initiatedBy = .ok entry)
  | journal (c : ManualCommand) (entry : JournalEntry) (total : Decimal) (event : EventId)
    (now : Instant)

namespace Posting

/-- The rows of a posting. -/
def rows : Posting → List Row
  | payment c id entry event now _ _ => c.rows id entry event now
  | topUp c entry event now _ => c.rows entry event now
  | journal c entry total event now => c.rows entry total event now

/-- The journal of a posting. -/
def entry : Posting → JournalEntry
  | payment _ _ entry _ _ _ _ => entry
  | topUp _ entry _ _ _ => entry
  | journal _ entry _ _ _ => entry

/-- The rows of a posting that go to one table. -/
def table {β : Type} (g : Row → Option β) (P : Posting) : List β := P.rows.filterMap g

@[simp] theorem table_journal (P : Posting) : P.table Row.journal? = [P.entry] := by
  cases P <;> rfl

/-- The events of a posting are those that nobody claimed yet. -/
theorem bare_of_mem {P : Posting} {e : OutboxEvent} (h : e ∈ P.table Row.event?) : e.bare = e := by
  cases P with
  | payment c id entry event now _ _ => rw [List.mem_singleton.1 h]; rfl
  | topUp c entry event now _ => rw [List.mem_singleton.1 h]; rfl
  | journal c entry total event now => rw [List.mem_singleton.1 h]; rfl

/-- The tables hold the rows of these postings, and no others. -/
structure Fill (L : List Posting) (m : Memory) : Prop where
  sound : m.Sound
  payments : m.payments = L.flatMap (table Row.payment?)
  steps : m.steps = L.flatMap (table Row.step?)
  journals : m.journals = L.flatMap (table Row.journal?)
  records : m.records = L.flatMap (table Row.record?)
  outbox : m.outbox.map OutboxEvent.bare = L.flatMap (table Row.event?)

namespace Fill

variable {L : List Posting} {m : Memory} {P Q : Posting}

theorem eq_of_key {β κ : Type} {g : Row → Option β} {k : β → κ}
    (h : ((L.flatMap (table g)).map k).Nodup) (hP : P ∈ L) (hQ : Q ∈ L) {a b : β}
    (ha : a ∈ P.table g) (hb : b ∈ Q.table g) (hab : k a = k b) : Q = P := by
  rw [List.map_flatMap, List.nodup_flatMap] at h
  by_contra hne
  have symm : Std.Symm (Function.onFun List.Disjoint fun R : Posting => (R.table g).map k) :=
    ⟨fun _ _ hd _ hb ha => hd ha hb⟩
  have hd := h.2.forall hQ hP hne
  exact hd (List.mem_map_of_mem hb) (hab ▸ List.mem_map_of_mem ha)

theorem eq_of_entry (h : Fill L m) (hP : P ∈ L) (hQ : Q ∈ L) (he : Q.entry.id = P.entry.id) :
    Q = P := by
  refine eq_of_key (g := Row.journal?) (k := JournalEntry.id) ?_ hP hQ ?_ ?_ he.symm
  · rw [← h.journals]
    exact h.sound.journalIds
  · simp
  · simp

theorem eq_of_payment (h : Fill L m) (hP : P ∈ L) (hQ : Q ∈ L) {p q : Payment}
    (hp : p ∈ P.table Row.payment?) (hq : q ∈ Q.table Row.payment?) (hid : q.id = p.id) :
    Q = P := by
  refine eq_of_key (k := Payment.id) ?_ hP hQ hp hq hid.symm
  rw [← h.payments]
  exact h.sound.paymentIds

theorem eq_of_record (h : Fill L m) (hP : P ∈ L) (hQ : Q ∈ L) {r s : IdempotencyRecord}
    (hr : r ∈ P.table Row.record?) (hs : s ∈ Q.table Row.record?) (hkey : s.key = r.key) :
    Q = P := by
  refine eq_of_key (k := IdempotencyRecord.key) ?_ hP hQ hr hs hkey.symm
  rw [← h.records]
  exact h.sound.recordKeys

theorem nodup (h : Fill L m) : L.Nodup := by
  have hj := h.sound.journalIds
  rw [h.journals, List.map_flatMap] at hj
  -- every posting has one journal, and no two journals share an identifier
  have he : L.flatMap (fun P => (P.table Row.journal?).map (·.id)) = L.map (·.entry.id) := by
    simp [List.map_eq_flatMap]
  rw [he] at hj
  exact List.Nodup.of_map _ hj

/-- **Rows of one posting only** are found among the rows of this posting. -/
theorem filter_eq (h : Fill L m) (hP : P ∈ L) {β : Type} {g : Row → Option β} {q : β → Bool}
    (only : ∀ Q ∈ L, ∀ b ∈ Q.table g, q b = true → Q = P) :
    (L.flatMap (table g)).filter q = (P.table g).filter q := by
  have hL := h.nodup
  clear h
  induction L with
  | nil => cases hP
  | cons Q L ih =>
    rw [List.nodup_cons] at hL
    rw [List.flatMap_cons, List.filter_append]
    have rest : ∀ Q ∈ L, ∀ b ∈ Q.table g, q b = true → Q = P :=
      fun Q hQ => only Q (List.mem_cons_of_mem _ hQ)
    by_cases hQ : Q = P
    -- the posting itself: no other one has such rows, and it is not there again
    · subst hQ
      have hnil : (L.flatMap (table g)).filter q = [] := by
        refine List.filter_eq_nil_iff.2 fun b hb hq => ?_
        obtain ⟨R, hR, hb⟩ := List.mem_flatMap.1 hb
        exact hL.1 (rest R hR b hb hq ▸ hR)
      rw [hnil, List.append_nil]
    -- another posting has no such rows
    · have hnil : (Q.table g).filter q = [] :=
        List.filter_eq_nil_iff.2 fun b hb hq => hQ (only Q List.mem_cons_self b hb hq)
      rw [hnil, List.nil_append]
      exact ih ((List.mem_cons.1 hP).resolve_left (Ne.symm hQ)) rest hL.2

theorem exists_event (h : Fill L m) (hP : P ∈ L) {q : OutboxEvent → Bool} {e : OutboxEvent}
    (hq : ∀ e : OutboxEvent, q e.bare = q e)
    (only : ∀ Q ∈ L, ∀ b ∈ Q.table Row.event?, q b = true → Q = P)
    (he : (P.table Row.event?).filter q = [e]) :
    ∃ e', e'.bare = e ∧ m.outbox.filter q = [e'] := by
  have hf : (m.outbox.filter q).map OutboxEvent.bare = [e] := by
    have hfun : q ∘ OutboxEvent.bare = q := funext hq
    rw [← he, ← h.filter_eq hP only, ← h.outbox, List.filter_map, hfun]
  obtain ⟨e', hm, hb⟩ := List.map_eq_singleton_iff.1 hf
  exact ⟨e', hb, hm⟩

theorem exists_of_event (h : Fill L m) {e : OutboxEvent} (he : e ∈ m.outbox) :
    ∃ P ∈ L, e.bare ∈ P.table Row.event? := by
  have hb := List.mem_map_of_mem (f := OutboxEvent.bare) he
  rw [h.outbox] at hb
  exact List.mem_flatMap.1 hb

end Fill

theorem exists_of_commit {j : Job} {es : List Exchange} {q : Program Job.Reply}
    (h : Job.Progress es j q) {rows : List Row} (hrows : rows ∈ Log.commits es) :
    ∃ P : Posting, P.rows = rows := by
  cases h with
  | payment command progress =>
    obtain ⟨id, _, _, entry, event, now, -, booked, rfl⟩ := progress.of_commit hrows
    exact ⟨.payment _ id entry event now command booked, rfl⟩
  | topUp _ _ progress =>
    obtain ⟨_, _, entry, event, now, booked, rfl⟩ := progress.of_commit hrows
    exact ⟨.topUp _ entry event now booked, rfl⟩
  | journal _ _ progress =>
    obtain ⟨_, _, entry, total, event, now, -, rfl⟩ := progress.of_commit hrows
    exact ⟨.journal _ entry total event now, rfl⟩
  | plain plain _ _ => simp [(Log.eq_nil_of_plain plain).2.2] at hrows

end Posting

namespace Ledger

variable {ι : Type} [DecidableEq ι] (f : Bool) (jobs : ι → Job) (ms : List (Move ι))

theorem exists_postings : ∃ L : List Posting,
    ((start .empty f jobs).after ms).commits = L.map Posting.rows := by
  have h : ((start .empty f jobs).after ms).commits ∈ Set.range (List.map Posting.rows) := by
    rw [Set.range_list_map]
    intro rows hrows
    obtain ⟨i, hi⟩ := Pool.mem_commits.1 hrows
    exact Posting.exists_of_commit (progress .empty f jobs ms i) hi
  obtain ⟨L, hL⟩ := h
  exact ⟨L, hL.symm⟩

/-- **A store that was empty at first** is filled by postings. -/
theorem exists_fill : ∃ L, Posting.Fill L ((start .empty f jobs).after ms).memory := by
  obtain ⟨L, hL⟩ := exists_postings f jobs ms
  have table : ∀ {β : Type} (g : Row → Option β),
      ((start .empty f jobs).after ms).committed.filterMap g = L.flatMap (Posting.table g) := by
    intro β g
    rw [Pool.committed, hL, List.filterMap_flatten, List.map_map, List.flatMap]
    rfl
  refine ⟨L, Pool.sound_after f _ ms Memory.sound_empty, ?_, ?_, ?_, ?_, ?_⟩
  · rw [← table]
    exact Pool.memory_payments .empty f _ ms
  · rw [← table]
    exact Pool.memory_steps .empty f _ ms
  · rw [← table]
    exact Pool.memory_journals .empty f _ ms
  · rw [← table]
    exact Pool.memory_records .empty f _ ms
  · refine (Pool.memory_outbox .empty f _ ms).trans ?_
    have ho : ((start .empty f jobs).after ms).committed.filterMap Row.event? =
        L.flatMap (Posting.table Row.event?) := table Row.event?
    have hb : ∀ e ∈ L.flatMap (Posting.table Row.event?), e.bare = id e := by
      intro e he
      obtain ⟨P, -, he⟩ := List.mem_flatMap.1 he
      exact Posting.bare_of_mem he
    rw [start] at ho
    rw [ho]
    exact (List.map_congr_left hb).trans (List.map_id _)

end Ledger

end DoubleEntry
