import DoubleEntry.Proofs.Replay

/-!
# Traces of payments

What a payment has done at any moment, whatever it was answered.  It holds no money yet
(`Payments.Progress.unheld`), or it has reserved one hold; then it is on its way, or it has written
its rows and can only answer with its identifier, or it has released the hold and written nothing
(`Payments.Persisted`).

## Main definitions

* `Payments.Persisted`: what a payment with a hold has done.
* `Payments.Progress`: what a payment has done.

## Main results

* `Payments.always_run`: every trace of a payment is one of a `Progress`.
* `Payments.Progress.of_commit`: the rows that a payment commits.
-/

namespace DoubleEntry

namespace Payments

open Log

/-- An answer that a payment gives is one that it found. -/
abbrev Found (c : PaymentCommand) : List Exchange → Program (Except ServiceError PaymentPosted) →
    Prop :=
  Replayed c.key IdempotencyRecord.postPayment PaymentPosted.decoder

/-- What a payment has done since its hold was reserved. -/
inductive Persisted (c : PaymentCommand) (id : PaymentId) (es : List Exchange)
    (q : Program (Except ServiceError PaymentPosted)) : Prop
  /-- It is on its way. -/
  | pending (released : releases es = []) (written : commits es = [])
    (unended : ∀ res, q ≠ .done res)
  /-- It was written, and can only answer with its identifier. -/
  | posted {journal : JournalId} {lineIds : Uuid × Uuid} {now : Instant} {entry : JournalEntry}
    (event : EventId)
    (booked : JournalEntry.forPayment journal lineIds id c.source c.destination c.currency c.amount
      now c.initiatedBy = .ok entry)
    (released : releases es = []) (written : commits es = [c.rows id entry event now])
    (answers : ∀ res, q = .done res → res = .ok (PaymentCommand.answer id))
  /-- Its hold was released, and an answer that it gives is an earlier one. -/
  | undone (released : releases es = [c.unhold id]) (written : commits es = [])
    (answers : Found c es q)

/-- What a payment has done. -/
inductive Progress (c : PaymentCommand) (es : List Exchange)
    (q : Program (Except ServiceError PaymentPosted)) : Prop
  /-- It has no hold; one that it asked for was refused. -/
  | unheld (refused : ∀ h o, (h, o) ∈ holds es → o.ok = false ∧ ∃ id ∈ drawn es, h = c.hold id)
    (released : releases es = []) (written : commits es = []) (answers : Found c es q)
  /-- It has one hold, under an identifier that it drew. -/
  | held {id : PaymentId} {o : HoldOutcome} (fresh : id ∈ drawn es)
    (reserved : holds es = [(c.hold id, o)]) (granted : o.ok = true)
    (persisted : Persisted c id es q)

/-- A payment did nothing, and an answer that it gives is an earlier one. -/
abbrev Quiet (c : PaymentCommand) : List Exchange → Program (Except ServiceError PaymentPosted) →
    Prop :=
  DoubleEntry.Quiet c.key IdempotencyRecord.postPayment PaymentPosted.decoder

variable {c : PaymentCommand} {id : PaymentId}

/-! ### Plain exchanges -/

theorem progress_of_quiet (es : List Exchange) (q : Program (Except ServiceError PaymentPosted))
    (h : Quiet c es q) : Progress c es q :=
  .unheld (by simp [h.held]) h.released h.written h.answers

theorem Persisted.cons {e : Exchange} {es : List Exchange}
    {q : Program (Except ServiceError PaymentPosted)} (h : Persisted c id es q)
    (hr : e.release? = none) (hi : e.commit? = none) : Persisted c id (e :: es) q := by
  have hr := releases_cons_of_none hr es
  have hi := commits_cons_of_none hi es
  rcases h with ⟨h1, h2, h3⟩ | ⟨event, hb, h1, h2, h3⟩ | ⟨h1, h2, h3⟩
  · exact .pending (hr.trans h1) (hi.trans h2) h3
  · exact .posted event hb (hr.trans h1) (hi.trans h2) h3
  · exact .undone (hr.trans h1) (hi.trans h2) (h3.cons e)

theorem tolerant_persisted (c : PaymentCommand) (id : PaymentId) :
    Program.Tolerant fun es q => holds es = [] ∧ Persisted c id es q where
  unended hq := ⟨rfl, .pending rfl rfl hq⟩
  plain {_ es _} he h := ⟨(holds_cons_of_none he.hold es).trans h.1, h.2.cons he.release he.commit⟩

theorem tolerant_progress (c : PaymentCommand) : Program.Tolerant (Progress c) where
  unended hq := progress_of_quiet _ _ ((tolerant_quiet _ _ _).unended hq)
  plain {e es _} he h := by
    have hh := holds_cons_of_none he.hold es
    rcases h with ⟨h0, h1, h2, h3⟩ | ⟨hd, h0, ho, hp⟩
    · refine .unheld ?_ ((releases_cons_of_none he.release es).trans h1)
        ((commits_cons_of_none he.commit es).trans h2) (h3.cons e)
      rintro h o hm
      rw [hh] at hm
      obtain ⟨hok, id, hid, hc⟩ := h0 h o hm
      exact ⟨hok, id, drawn_subset e es hid, hc⟩
    · exact .held (drawn_subset e es hd) (hh.trans h0) ho (hp.cons he.release he.commit)

/-! ### After the hold was reserved -/

/-- **The compensation** releases the hold, and nothing is written after that. -/
theorem always_compensate (c : PaymentCommand) (id : PaymentId) (e : StoreError) :
    (compensate c id e).Always fun es q => holds es = [] ∧ Persisted c id es q := by
  refine Program.always_ask ((tolerant_persisted c id).waits _ _)
    ⟨rfl, .undone rfl rfl (replayed_of_ne nofun)⟩ fun released => ?_
  refine Program.Always.mono (P := Quiet c) ?_ fun es q h => ⟨h.held, .undone ?_ h.written
    (h.answers.cons _)⟩
  · have tolerant := tolerant_quiet c.key IdempotencyRecord.postPayment PaymentPosted.decoder
    refine tolerant.ask trivial fun at_ => tolerant.ask trivial fun _ => ?_
    cases e with
    | conflict _ => exact always_unlessAnswered tolerant (fun _ _ h => h) (quiet_fail _)
    | _ => exact quiet_fail _
  · rw [releases_release, h.released]

/-- What is left of a payment that was written can only answer. -/
theorem always_conclude (c : PaymentCommand) (id : PaymentId) (now : Instant) :
    (conclude c id now).Always fun es q => holds es = [] ∧ releases es = [] ∧ commits es = [] ∧
      ∀ res, q = .done res → res = .ok (PaymentCommand.answer id) := by
  refine Program.always_ask ⟨rfl, rfl, rfl, nofun⟩ ⟨rfl, rfl, rfl, nofun⟩ fun _ => ?_
  refine Program.always_done ⟨rfl, rfl, rfl, ?_⟩
  rintro _ ⟨⟩
  rfl

/-- **A payment with a hold** is written, or its hold is released. -/
theorem always_persist (c : PaymentCommand) (id : PaymentId) (now : Instant) :
    (persist c id now).Always fun es q => holds es = [] ∧ Persisted c id es q := by
  have tolerant := tolerant_persisted c id
  refine tolerant.ask trivial fun journal => tolerant.ask trivial fun debitLine =>
    tolerant.ask trivial fun creditLine => Program.always_ofHalt
      (fun e _ => always_compensate c id (.domain e)) tolerant.crash fun entry booked =>
        tolerant.ask trivial fun event => ?_
  have crashed := tolerant.crashes (e := ⟨.store (.post (c.rows id entry event now)), none⟩)
    ⟨rfl, rfl, rfl⟩
  refine Program.always_ask (tolerant.waits _ _) crashed fun written => ?_
  cases written with
  -- the write failed or lost a race: the hold must be given back
  | error e =>
    exact (always_compensate c id e).mono fun _ _ => tolerant.plain ⟨rfl, rfl, rfl⟩
  | ok u =>
    refine (always_conclude c id now).mono fun es q ⟨hh, hr, hi, ha⟩ => ⟨hh, ?_⟩
    have written := commits_post (c.rows id entry event now) u es
    rw [hi] at written
    exact .posted event booked hr written ha

/-! ### The whole payment -/

theorem always_reserve (c : PaymentCommand) : (reserve c).Always (Progress c) := by
  have tolerant := tolerant_progress c
  have fresh : Request.freshId.IsPlain := trivial
  refine Program.always_ask (tolerant.waits _ _) (tolerant.crashes (fresh.exchange none))
    fun (id : PaymentId) => ?_
  refine Program.always_ask (tolerant.plain (fresh.exchange _) (tolerant.waits _ _))
    (tolerant.plain (fresh.exchange _) (tolerant.crashes ⟨rfl, rfl, rfl⟩)) fun held => ?_
  cases held with
  | error e =>
    refine Program.Always.mono (P := Quiet c) (quiet_fail _) fun es q h => ?_
    have asked := tolerant.plain (e := ⟨.accounts (.reserve (c.hold id)), some (.error e)⟩)
      ⟨rfl, rfl, rfl⟩ (progress_of_quiet es q h)
    exact tolerant.plain (fresh.exchange _) asked
  | ok o =>
    simp only [Program.served]
    split_ifs with ho
    · have clock : Request.now.IsPlain := trivial
      refine ((tolerant_persisted c id).ask clock (always_persist c id)).mono fun es q h =>
        .held (mem_drawn id _) ?_ ho ((h.2.cons rfl rfl).cons rfl rfl)
      have reserved := holds_reserve (c.hold id) o es
      rw [h.1] at reserved
      exact reserved
    · refine Program.Always.mono (P := Quiet c) (quiet_fail _) fun es q h =>
        .unheld ?_ h.released h.written ((h.answers.cons _).cons _)
      intro h' o' hm
      obtain hm | hm := List.mem_cons.1 hm
      · cases hm
        exact ⟨by simpa using ho, id, mem_drawn id _, rfl⟩
      · rw [← holds, h.held] at hm
        cases hm

/-- **Every trace of a payment** is one of a `Progress`. -/
theorem always_run (c : PaymentCommand) : (run c).Always (Progress c) :=
  always_unlessAnswered (tolerant_progress c) progress_of_quiet
    (always_whenValid (tolerant_progress c) progress_of_quiet (always_reserve c))

theorem Progress.of_commit {es : List Exchange} {q : Program (Except ServiceError PaymentPosted)}
    (h : Progress c es q) {rows : List Row} (hrows : rows ∈ commits es) :
    ∃ id journal lineIds entry event now, id ∈ drawn es ∧
      JournalEntry.forPayment journal lineIds id c.source c.destination c.currency c.amount now
        c.initiatedBy = .ok entry ∧
      rows = c.rows id entry event now := by
  rcases h with ⟨-, -, hc, -⟩ |
    ⟨hid, -, -, ⟨-, hc, -⟩ | ⟨event, booked, -, hc, -⟩ | ⟨-, hc, -⟩⟩
  · simp [hc] at hrows
  · simp [hc] at hrows
  · rw [hc, List.mem_singleton] at hrows
    exact ⟨_, _, _, _, event, _, hid, booked, hrows⟩
  · simp [hc] at hrows

end Payments

end DoubleEntry
