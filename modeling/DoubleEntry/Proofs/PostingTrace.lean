import DoubleEntry.Proofs.Replay
import DoubleEntry.Service.Postings

/-!
# Traces of postings without a payment

What a top-up (`Postings.Credited`) and a journal of given lines (`Postings.Booked`) have done at
any moment: nothing yet, or they have written their rows and can only answer with the journal.  They
never ask for a hold.

## Main results

* `Postings.always_runCredit`: every trace of a top-up is one of `Credited`.
* `Postings.always_runManual`: every trace of a journal of given lines is one of `Booked`.
* `Postings.Credited.of_commit`, `Postings.Booked.of_commit`: the rows that they commit.
-/

namespace DoubleEntry

theorem JournalEntry.posted_eq_ok {id : JournalId} {ref createdBy : String} {bookedAt : Instant}
    {currency : Currency} {lines : List EntryLine} {entry : JournalEntry}
    (h : posted id ref bookedAt createdBy currency lines = .ok entry) :
    entry = ⟨id, ref, bookedAt, createdBy, .posted, currency, lines⟩ ∧
      ensureBalanced lines = .ok () := by
  cases hb : ensureBalanced lines with
  | error e => simp [posted, hb, bind, Except.bind] at h
  | ok u =>
    simp only [posted, hb, bind, Except.bind, pure, Except.pure, Except.ok.injEq] at h
    exact ⟨h.symm, rfl⟩

namespace Postings

open Log

/-- What a top-up has done. -/
inductive Credited (c : CreditCommand) (es : List Exchange)
    (q : Program (Except ServiceError JournalPosted)) : Prop
  /-- It has written nothing, and an answer that it gives is an earlier one. -/
  | idle (written : commits es = [])
    (answers : Replayed c.key IdempotencyRecord.creditAccount JournalPosted.decoder es q)
  /-- It was written, and can only answer with its journal. -/
  | posted {journal : JournalId} {lineIds : Uuid × Uuid} {now : Instant} {entry : JournalEntry}
    (event : EventId)
    (booked : JournalEntry.forTopUp journal lineIds c.account c.currency c.amount c.externalRef now
      c.initiatedBy = .ok entry)
    (written : commits es = [c.rows entry event now])
    (answers : ∀ res, q = .done res → res = .ok (JournalPosted.of entry.id))

/-- What a journal of given lines has done. -/
inductive Booked (c : ManualCommand) (es : List Exchange)
    (q : Program (Except ServiceError JournalPosted)) : Prop
  /-- It has written nothing, and does not answer. -/
  | idle (written : commits es = []) (answers : ∀ a, q ≠ .done (.ok a))
  /-- It was written, and can only answer with its journal. -/
  | posted {journal : JournalId} {ids : List Uuid} {now : Instant} {entry : JournalEntry}
    {total : Decimal} (event : EventId)
    (booked : JournalEntry.posted journal c.externalRef now c.initiatedBy c.currency
      (c.entryLines journal ids) = .ok entry)
    (sum : entry.totalDebit = some total)
    (written : commits es = [c.rows entry total event now])
    (answers : ∀ res, q = .done res → res = .ok (JournalPosted.of entry.id))

/-- The program has asked for no hold, and released none. -/
structure Holdless (es : List Exchange) : Prop where
  held : holds es = []
  released : releases es = []

theorem Holdless.cons {e : Exchange} {es : List Exchange} (he : e.IsPlain) (h : Holdless es) :
    Holdless (e :: es) :=
  ⟨(holds_cons_of_none he.hold es).trans h.held,
    (releases_cons_of_none he.release es).trans h.released⟩

/-! ### Top-ups -/

theorem tolerant_credited (c : CreditCommand) :
    Program.Tolerant fun es q => Holdless es ∧ Credited c es q where
  unended hq := ⟨⟨rfl, rfl⟩, .idle rfl (replayed_of_ne fun _ => hq _)⟩
  plain {e es _} he h := by
    have hc := commits_cons_of_none he.commit es
    refine ⟨h.1.cons he, ?_⟩
    rcases h.2 with ⟨h1, h2⟩ | ⟨event, hb, h1, h2⟩
    · exact .idle (hc.trans h1) (h2.cons e)
    · exact .posted event hb (hc.trans h1) h2

theorem credited_of_quiet {c : CreditCommand} (es : List Exchange)
    (q : Program (Except ServiceError JournalPosted))
    (h : Quiet c.key IdempotencyRecord.creditAccount JournalPosted.decoder es q) :
    Holdless es ∧ Credited c es q :=
  ⟨⟨h.held, h.released⟩, .idle h.written h.answers⟩

theorem always_concludeCredit (c : CreditCommand) (journal : JournalId) (now : Instant) :
    (concludeCredit c journal now).Always fun es q => Holdless es ∧ commits es = [] ∧
      ∀ res, q = .done res → res = .ok (JournalPosted.of journal) := by
  refine Program.always_ask ⟨⟨rfl, rfl⟩, rfl, nofun⟩ ⟨⟨rfl, rfl⟩, rfl, nofun⟩ fun _ => ?_
  refine Program.always_done ⟨⟨rfl, rfl⟩, rfl, ?_⟩
  rintro _ ⟨⟩
  rfl

theorem always_persistCredit (c : CreditCommand) :
    (persistCredit c).Always fun es q => Holdless es ∧ Credited c es q := by
  have tolerant := tolerant_credited c
  have fails : ∀ e, (Program.fail e).Always fun es q => Holdless es ∧ Credited c es q :=
    fun e => (quiet_fail e).mono credited_of_quiet
  refine tolerant.ask trivial fun now => tolerant.ask trivial fun journal =>
    tolerant.ask trivial fun debitLine => tolerant.ask trivial fun creditLine =>
      Program.always_ofHalt (fun e _ => fails _) tolerant.crash
        fun entry booked => tolerant.ask trivial fun event => ?_
  have crashed := tolerant.crashes (e := ⟨.store (.post (c.rows entry event now)), none⟩)
    ⟨rfl, rfl, rfl⟩
  refine Program.always_ask (tolerant.waits _ _) crashed fun written => ?_
  cases written with
  | error e =>
    refine Program.Always.mono (P := fun es q => Holdless es ∧ Credited c es q) ?_
      fun _ _ => tolerant.plain ⟨rfl, rfl, rfl⟩
    cases e with
    -- another top-up with the key was first: its answer is looked up
    | conflict _ => exact Payments.always_unlessAnswered tolerant credited_of_quiet (fails _)
    | _ => exact fails _
  | ok u =>
    have hid : entry.id = journal := by rw [(JournalEntry.posted_eq_ok booked).1]
    refine (always_concludeCredit c journal now).mono fun es q ⟨hl, hc, ha⟩ =>
      ⟨⟨hl.held, hl.released⟩, ?_⟩
    have written := commits_post (c.rows entry event now) u es
    rw [hc] at written
    exact .posted event booked written (hid ▸ ha)

/-- **Every trace of a top-up** is one of `Credited`. -/
theorem always_runCredit (c : CreditCommand) :
    (runCredit c).Always fun es q => Holdless es ∧ Credited c es q :=
  Payments.always_unlessAnswered (tolerant_credited c) credited_of_quiet
    (Payments.always_whenValid (tolerant_credited c) credited_of_quiet (always_persistCredit c))

theorem Credited.of_commit {c : CreditCommand} {es : List Exchange}
    {q : Program (Except ServiceError JournalPosted)} (h : Credited c es q) {rows : List Row}
    (hrows : rows ∈ commits es) : ∃ journal lineIds entry event now,
      JournalEntry.forTopUp journal lineIds c.account c.currency c.amount c.externalRef now
        c.initiatedBy = .ok entry ∧
      rows = c.rows entry event now := by
  rcases h with ⟨hc, -⟩ | ⟨event, booked, hc, -⟩
  · simp [hc] at hrows
  · rw [hc, List.mem_singleton] at hrows
    exact ⟨_, _, _, event, _, booked, hrows⟩

/-! ### Journals of given lines -/

theorem tolerant_booked (c : ManualCommand) :
    Program.Tolerant fun es q => Holdless es ∧ Booked c es q where
  unended hq := ⟨⟨rfl, rfl⟩, .idle rfl fun _ => hq _⟩
  plain {e es _} he h := by
    have hc := commits_cons_of_none he.commit es
    refine ⟨h.1.cons he, ?_⟩
    rcases h.2 with ⟨h1, h2⟩ | ⟨event, hb, hs, h1, h2⟩
    · exact .idle (hc.trans h1) h2
    · exact .posted event hb hs (hc.trans h1) h2

theorem always_freshIds {α : Type} {P : List Exchange → Program α → Prop}
    (hP : Program.Tolerant P) {k : List Uuid → Program α} (hk : ∀ ids, (k ids).Always P) (n : Nat) :
    (freshIds n k).Always P := by
  induction n generalizing k with
  | zero => exact hk []
  | succ n ih => exact hP.ask trivial fun id => ih fun ids => hk (id :: ids)

theorem always_persistManual (c : ManualCommand) (now : Instant) (journal : JournalId)
    (ids : List Uuid) :
    (persistManual c now journal ids).Always fun es q => Holdless es ∧ Booked c es q := by
  have tolerant := tolerant_booked c
  have fails : ∀ e, (Program.fail e).Always fun es q => Holdless es ∧ Booked c es q :=
    fun e => Program.always_done ⟨⟨rfl, rfl⟩, .idle rfl nofun⟩
  refine Program.always_ofHalt (fun e _ => fails _) tolerant.crash fun entry booked =>
    Program.always_ofHalt (fun _ _ => tolerant.crash) tolerant.crash fun total sum =>
      tolerant.ask trivial fun event => ?_
  have crashed := tolerant.crashes (e := ⟨.store (.post (c.rows entry total event now)), none⟩)
    ⟨rfl, rfl, rfl⟩
  refine Program.always_ask (tolerant.waits _ _) crashed fun written => ?_
  cases written with
  | error e => exact (fails _).mono fun _ _ => tolerant.plain ⟨rfl, rfl, rfl⟩
  | ok u =>
    have hid : entry.id = journal := by rw [(JournalEntry.posted_eq_ok booked).1]
    have hsum : entry.totalDebit = some total := by
      cases h : entry.totalDebit <;> rw [h] at sum <;> cases sum
      rfl
    have hp : ∀ {q : Program (Except ServiceError JournalPosted)} (es : List Exchange),
        commits es = [c.rows entry total event now] →
        (∀ res, q = .done res → res = .ok (JournalPosted.of journal)) → Booked c es q :=
      fun es hc ha => .posted event booked hsum hc (hid ▸ ha)
    refine Program.always_ask ⟨⟨rfl, rfl⟩, hp _ rfl nofun⟩ ⟨⟨rfl, rfl⟩, hp _ rfl nofun⟩ fun _ => ?_
    refine Program.always_done ⟨⟨rfl, rfl⟩, hp _ rfl ?_⟩
    rintro _ ⟨⟩
    rfl

/-- **Every trace of a journal of given lines** is one of `Booked`. -/
theorem always_runManual (c : ManualCommand) :
    (runManual c).Always fun es q => Holdless es ∧ Booked c es q := by
  have tolerant := tolerant_booked c
  exact tolerant.ask trivial fun now => tolerant.ask trivial fun journal =>
    always_freshIds tolerant (always_persistManual c now journal) _

theorem Booked.of_commit {c : ManualCommand} {es : List Exchange}
    {q : Program (Except ServiceError JournalPosted)} (h : Booked c es q) {rows : List Row}
    (hrows : rows ∈ commits es) : ∃ journal ids entry total event now,
      JournalEntry.posted journal c.externalRef now c.initiatedBy c.currency
        (c.entryLines journal ids) = .ok entry ∧
      rows = c.rows entry total event now := by
  rcases h with ⟨hc, -⟩ | ⟨event, booked, -, hc, -⟩
  · simp [hc] at hrows
  · rw [hc, List.mem_singleton] at hrows
    exact ⟨_, _, _, _, event, _, booked, hrows⟩

end Postings

end DoubleEntry
