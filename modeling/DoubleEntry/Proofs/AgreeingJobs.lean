import DoubleEntry.Proofs.AgreeingPostings
import DoubleEntry.Proofs.Ledger
import DoubleEntry.Proofs.StoredViews

/-!
# Jobs over a store in memory and over tables

A session over tables cannot be told from one over a store in memory: by induction on its jobs, each
of which agrees.  Times are given in whole microseconds, and no time to live of a claim reaches back
beyond the first year of the calendar.

## Main definitions

* `Job.InMicros`, `Job.StaysWithin`: the times of a job are whole microseconds; claims that a worker
  takes over are within the calendar.

## Main results

* `Session.agrees_job`: every job agrees.
* `Session.outcome_ofTables`: sessions over empty tables and over an empty store in memory.
* `Session.not_outcome_ofTables`: with a time to live that reaches beyond the calendar they differ.
-/

namespace DoubleEntry

namespace Job

/-- The times that come with a job are whole microseconds. -/
def InMicros : Job → Prop
  | .journals _ q => q.start.nanos % 1000 = 0 ∧ q.stop.nanos % 1000 = 0
  | .statement _ q => q.start.nanos % 1000 = 0 ∧ q.stop.nanos % 1000 = 0
  | .relay c => c.claimTtl % 1000 = 0
  | _ => True

/-- The claims that a worker takes over at a reading of the clock are older than some instant. -/
def StaysWithin (clock : List Instant) : Job → Prop
  | .relay c => ∀ t ∈ clock, (t.shift (-Relay.ttl c)).isSome
  | _ => True

/-- The outcome of an iteration, once it is told. -/
def relayed? : Option Reply → Option RunOutcome
  | some (.relayed o) => some o
  | _ => none

instance : DecidablePred InMicros := fun j => by
  cases j <;> unfold InMicros <;> infer_instance

instance (clock : List Instant) : DecidablePred (StaysWithin clock) := fun j => by
  cases j <;> unfold StaysWithin <;> infer_instance

end Job

theorem Listing.isWhole_of_ofFields {account : String} {start stop : Instant}
    {page size : Option Nat} {maxDays : Nat} {l : Listing} (hstart : start.nanos % 1000 = 0)
    (hstop : stop.nanos % 1000 = 0) (h : ofFields account start stop page size maxDays = .ok l) :
    l.start.IsWhole ∧ l.stop.IsWhole := by
  have whole : ∀ {i j : Instant} {field : String}, i.nanos % 1000 = 0 →
      Field.timestamp i field = .ok j → j = i ∧ j.IsWhole := by
    intro i j field hi h
    unfold Field.timestamp at h
    split_ifs at h with hyear
    · cases h
      exact ⟨rfl, hi, by omega, by omega⟩
    · cases h
  obtain ⟨a, -, h⟩ := exists_of_bind_eq_ok h
  obtain ⟨⟨i, j⟩, hwindow, h⟩ := exists_of_bind_eq_ok h
  obtain ⟨⟨page, size⟩, -, h⟩ := exists_of_bind_eq_ok h
  cases h
  obtain ⟨i', hi, hwindow⟩ := exists_of_bind_eq_ok hwindow
  obtain ⟨j', hj, hwindow⟩ := exists_of_bind_eq_ok hwindow
  split_ifs at hwindow
  · cases hwindow
  · cases hwindow
  · cases hwindow
    exact ⟨(whole hstart hi).2, (whole hstop hj).2⟩

namespace Session

variable {α : Type} {o : Outside} {clock times : List Instant} {m : Memory} {ids : List Uuid}
  {sc : Scene}

/-! ### Reading -/

theorem agrees_find (id : PaymentId) (h : Fit clock m ids times sc) :
    Agrees o clock (Payments.find id) m sc := by
  refine agrees_payment h (fun p hp steps => ?_) fun found => ?_
  · exact congrArg Program.answer (PaymentView.ofParts_atSix (h.stored.payments p hp) steps)
  · cases found with
    | none => exact agrees_done h _
    | some x => exact agrees_done h _

theorem agrees_journals (account : String) {q : ActivityQuery} (hstart : q.start.nanos % 1000 = 0)
    (hstop : q.stop.nanos % 1000 = 0) (h : Fit clock m ids times sc) :
    Agrees o clock (Listings.journals account q) m sc := by
  unfold Listings.journals
  split
  · exact agrees_done h _
  · rename_i l hl
    obtain ⟨hl1, hl2⟩ := Listing.isWhole_of_ofFields hstart hstop hl
    refine agrees_activity h hl1 hl2 (fun entries hentries => ?_) fun entries => agrees_done h _
    have hviews : (entries.map JournalEntry.atSix).map JournalView.ofEntry =
        entries.map JournalView.ofEntry := by
      rw [List.map_map]
      exact List.map_congr_left fun j hj => JournalView.ofEntry_atSix (hentries j hj)
    exact congrArg (fun views => Program.answer (JournalPage.mk views l.page l.size)) hviews

theorem agrees_enrich {items : List StatementItem} {k : List StatementItem → Program α}
    (h : Fit clock m ids times sc)
    (hk : ∀ items sc', Fit clock m ids times sc' → Agrees o clock (k items) m sc') :
    Agrees o clock (Listings.enrich items k) m sc := by
  unfold Listings.enrich
  split
  · exact hk items sc h
  · refine agrees_accounts h fun found sc' h => ?_
    cases found with
    | error e => exact hk _ sc' h
    | ok summaries => exact hk _ sc' h

/-- How a statement goes on with its items, if the sums of its lines stay within their range. -/
def withItems (c : StatementCommand) :
    Option (List StatementItem) → Program (Except ServiceError StatementPage)
  | none => .crash
  | some items =>
    if c.includeCounterparty then Listings.enrich items (Listings.finish c)
    else Listings.finish c items

/-- Of the journals that it reads, a statement looks at the items only. -/
theorem statement_eq {account : String} {q : StatementQuery} {c : StatementCommand}
    (h : StatementCommand.ofQuery account q = .ok c) : Listings.statement account q =
      .ask (.store (.activity c.listing)) (.stored fun entries =>
        withItems c ((entries.mapM fun e => StatementLine.project e c.listing.account).map
          (List.map StatementItem.ofLine))) := by
  unfold Listings.statement
  rw [h]
  refine congrArg (fun k => Program.ask (.store (.activity c.listing)) (.stored k)) ?_
  funext entries
  cases entries.mapM fun e => StatementLine.project e c.listing.account <;> rfl

theorem agrees_finishStatement (c : StatementCommand) (items : List StatementItem)
    (h : Fit clock m ids times sc) : Agrees o clock (Listings.finish c items) m sc :=
  agrees_now h fun _ _ h => agrees_audit h fun _ _ h => agrees_done h _

theorem agrees_withItems (c : StatementCommand) (items? : Option (List StatementItem))
    (h : Fit clock m ids times sc) : Agrees o clock (withItems c items?) m sc := by
  cases items? with
  | none => exact agrees_crash h
  | some items =>
    unfold withItems
    split_ifs
    · exact agrees_enrich h fun items _ h => agrees_finishStatement c items h
    · exact agrees_finishStatement c items h

theorem agrees_statement (account : String) {q : StatementQuery}
    (hstart : q.start.nanos % 1000 = 0) (hstop : q.stop.nanos % 1000 = 0)
    (h : Fit clock m ids times sc) : Agrees o clock (Listings.statement account q) m sc := by
  cases hc : StatementCommand.ofQuery account q with
  | error e =>
    unfold Listings.statement
    rw [hc]
    exact agrees_done h _
  | ok c =>
    obtain ⟨l, hl, hlc⟩ := exists_of_bind_eq_ok hc
    obtain ⟨hl1, hl2⟩ := Listing.isWhole_of_ofFields hstart hstop hl
    rw [statement_eq hc]
    cases hlc
    exact agrees_activity h hl1 hl2 (fun entries hentries => congrArg (withItems _)
      (StatementItem.mapM_project_atSix l.account hentries)) fun entries => agrees_withItems _ _ h

/-! ### The relay -/

theorem agrees_finish (c : RelayConfig) (claimed : List OutboxEvent) (count : Nat)
    (hclock : ∀ t ∈ clock, t.IsWhole) (h : Fit clock m ids times sc) :
    Agrees o clock (Relay.finish c claimed count) m sc := by
  unfold Relay.finish
  split_ifs with hcount
  · subst hcount
    exact agrees_settle h (.inl rfl) fun m' h => agrees_done h _
  · exact agrees_now h fun now _ h => agrees_settle h
      (.inr (h.isWhole hclock (List.mem_append_right _ (List.mem_singleton_self now))))
        fun m' h => agrees_done h _

theorem agrees_publishAll (c : RelayConfig) (claimed : List OutboxEvent) (count : Nat)
    (es : List OutboxEvent) (hclock : ∀ t ∈ clock, t.IsWhole) (h : Fit clock m ids times sc) :
    Agrees o clock (Relay.publishAll c claimed count es) m sc := by
  induction es generalizing count sc with
  | nil => exact agrees_finish c claimed count hclock h
  | cons e es ih =>
    refine agrees_publish h fun sent sc' h => ?_
    cases sent with
    | error e => exact agrees_finish c claimed count hclock h
    | ok u => exact ih (count + 1) h

theorem agrees_runOnce {c : RelayConfig} (hmicro : c.claimTtl % 1000 = 0)
    (hstays : ∀ t ∈ clock, (t.shift (-Relay.ttl c)).isSome) (hclock : ∀ t ∈ clock, t.IsWhole)
    (h : Fit clock m [] [] sc) : Agrees o clock (Relay.runOnce c) m sc := by
  refine agrees_now h fun now _ h => ?_
  have hnow := h.isWhole hclock (List.mem_singleton_self now)
  obtain ⟨stale, hstale⟩ := Option.isSome_iff_exists.1
    (hstays now (h.given (List.mem_append_left _ (List.mem_singleton_self now))))
  obtain ⟨n, hn, hn0⟩ : ∃ n : Nat, Relay.ttl c = n ∧ n % 1000 = 0 := by
    unfold Relay.ttl
    split_ifs
    · exact ⟨_, rfl, hmicro⟩
    · exact ⟨120000000000, rfl, rfl⟩
  obtain ⟨hseconds, hnanos⟩ := Instant.shift_neg (hn ▸ hstale)
  refine agrees_claim h hnow hstale (hnanos hnow.micro hn0)
    ((Instant.year_le_of_seconds_le hseconds).trans hnow.year_le) fun events m' h => ?_
  cases events with
  | nil => exact agrees_done h _
  | cons e es => exact agrees_publishAll c (e :: es) 0 (e :: es) hclock h

/-! ### Sessions -/

/-- **Every job agrees** whose times are whole microseconds within the calendar. -/
theorem agrees_job {j : Job} (hmicros : j.InMicros) (hstays : j.StaysWithin clock)
    (hclock : ∀ t ∈ clock, t.IsWhole) (h : Fit clock m [] [] sc) :
    Agrees o clock j.program m sc := by
  cases j with
  | post r => exact (agrees_postPayment r hclock h).map _
  | credit r => exact (agrees_credit r hclock h).map _
  | manual r => exact (agrees_postManual r hclock h).map _
  | find id => exact (agrees_find id h).map _
  | journals account q => exact (agrees_journals account hmicros.1 hmicros.2 h).map _
  | statement account q => exact (agrees_statement account hmicros.1 hmicros.2 h).map _
  | relay c => exact (agrees_runOnce hmicros hstays hclock h).map _

/-- **Jobs end alike** over a store in memory and over its tables, and the same happens outside. -/
theorem run_agrees (o : Outside) {jobs : List Job} (hmicros : ∀ j ∈ jobs, j.InMicros)
    (hstays : ∀ j ∈ jobs, j.StaysWithin clock) (hclock : ∀ t ∈ clock, t.IsWhole)
    (h : Fit clock m [] [] sc) :
    (run o jobs (.ofTables m.tables, sc)).1 = (run o jobs (.ofMemory m false, sc)).1 ∧
      (run o jobs (.ofTables m.tables, sc)).2.2 = (run o jobs (.ofMemory m false, sc)).2.2 := by
  induction jobs generalizing m sc with
  | nil => exact ⟨rfl, rfl⟩
  | cons j jobs ih =>
    obtain ⟨hmicro, hmicros⟩ := List.forall_mem_cons.1 hmicros
    obtain ⟨hstay, hstays⟩ := List.forall_mem_cons.1 hstays
    obtain ⟨a, m', sc', hm, ht, hfit⟩ := agrees_job (o := o) hmicro hstay hclock h
    obtain ⟨hreplies, hscene⟩ := ih hmicros hstays hfit
    simp only [run, hm, ht, hreplies, hscene, and_self]

/-- **Nobody can tell empty tables from an empty store in memory**: jobs end alike, and the same
happens outside. -/
theorem outcome_ofTables (o : Outside) {jobs : List Job} {clock : List Instant} {ids : List Uuid}
    (horder : clock.Pairwise (· < ·))
    (hclock : ∀ t ∈ clock, t.nanos % 1000 = 0 ∧ 2000 ≤ t.year ∧ t.year ≤ 2100) (hids : ids.Nodup)
    (hmicros : ∀ j ∈ jobs, j.InMicros) (hstays : ∀ j ∈ jobs, j.StaysWithin clock) :
    outcome o jobs clock ids (.ofTables .empty) = outcome o jobs clock ids .inMemory := by
  have hwhole : ∀ t ∈ clock, t.IsWhole := fun t ht => by
    obtain ⟨hmicro, hfirst, hlast⟩ := hclock t ht
    exact ⟨hmicro, by omega, by omega⟩
  have hfit : Fit clock Memory.empty [] [] ⟨[], clock, ids⟩ := by
    refine ⟨⟨?_, ?_, ?_, ?_, ?_⟩, hids, horder, List.Subset.refl clock, ?_⟩
    all_goals exact List.forall_mem_nil _
  obtain ⟨hreplies, hscene⟩ := run_agrees o hmicros hstays hwhole hfit
  exact Prod.ext hreplies (congrArg Scene.log hscene)

/-- A reading for each of the first seconds of a year. -/
def readings : List Instant := (List.range 8).filterMap fun n => Instant.of? (1704067200 + n) 0

/-- Some fresh identifiers. -/
def fresh : List Uuid := (List.range 12).map fun n => .ofNat (n + 1)

/-- A payment is posted, its event is published, and the payment is shown. -/
def shown : List Job := [.post Ledger.raceRequest, .relay {}, .find (.ofNat 1)]

/-- The event of a payment is published alike from tables and from memory. -/
theorem outcome_ofTables_shown : readings.Pairwise (· < ·) ∧
    (∀ t ∈ readings, t.nanos % 1000 = 0 ∧ 2000 ≤ t.year ∧ t.year ≤ 2100) ∧ fresh.Nodup ∧
    (∀ j ∈ shown, j.InMicros) ∧ (∀ j ∈ shown, j.StaysWithin readings) ∧
    (outcome .granting shown readings fresh .inMemory).1.map Job.relayed? =
      [none, some (.published 1), none] ∧
    outcome .granting shown readings fresh (.ofTables .empty) =
      outcome .granting shown readings fresh .inMemory := by
  have horder : readings.Pairwise (· < ·) := by decide +kernel
  have hclock : ∀ t ∈ readings, t.nanos % 1000 = 0 ∧ 2000 ≤ t.year ∧ t.year ≤ 2100 := by
    decide +kernel
  have hids : fresh.Nodup := by decide +kernel
  have hmicros : ∀ j ∈ shown, j.InMicros := by decide +kernel
  have hstays : ∀ j ∈ shown, j.StaysWithin readings := by decide +kernel
  exact ⟨horder, hclock, hids, hmicros, hstays, by decide +kernel,
    outcome_ofTables .granting horder hclock hids hmicros hstays⟩

/-- A top-up. -/
def bonus : CreditRequest where
  idempotencyKey := "bonus-0001"
  account := (Uuid.ofNat 1).toText
  currency := "USD"
  amount := "5.00"
  initiatedBy := "ops"
  externalRef := none
  reason := none
  customerId := none

/-- A top-up, and a worker for which no claim is stale before ten million million seconds. -/
def patient : List Job := [.credit bonus, .relay { claimTtl := 10000000000000000000000 }]

/-- **A time to live beyond the calendar tells tables from memory**: over tables the worker crashes,
and over memory it publishes the event. -/
theorem not_outcome_ofTables : ¬ ∀ (o : Outside) (jobs : List Job) (clock : List Instant)
    (ids : List Uuid), clock.Pairwise (· < ·) →
    (∀ t ∈ clock, t.nanos % 1000 = 0 ∧ 2000 ≤ t.year ∧ t.year ≤ 2100) → ids.Nodup →
    (∀ j ∈ jobs, j.InMicros) →
    outcome o jobs clock ids (.ofTables .empty) = outcome o jobs clock ids .inMemory := by
  intro h
  have hsame := h .granting patient readings fresh (by decide +kernel) (by decide +kernel)
    (by decide +kernel) (by decide +kernel)
  have hmemory : (outcome .granting patient readings fresh .inMemory).1.map Job.relayed? =
      [none, some (.published 1)] := by decide +kernel
  have htables : (outcome .granting patient readings fresh (.ofTables .empty)).1.map Job.relayed? =
      [none, none] := by decide +kernel
  rw [hsame, hmemory] at htables
  cases htables

end Session

end DoubleEntry
