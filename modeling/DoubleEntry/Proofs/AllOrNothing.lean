import DoubleEntry.Proofs.Balance
import DoubleEntry.Proofs.Ledger
import DoubleEntry.Proofs.Replay

/-!
# All or nothing

An operation that posts has many ends: its request is refused, its key was answered before, the
accounts service does not give leave or no answer, a row cannot be inserted, or the write fails when
it is to take effect.  Carried out by itself over any data, reachable or not, it always ends, and
only if it posts anew are the data changed: by the rows of the posting, each at the end of its
table (`Partners.all_or_nothing`).

## Main definitions

* `Partners`: everything but the store, which always answers.
* `Program.EndsOver`: a program ends, and its result and the data after it are related.
* `Conclusion`: an operation was refused, gave an earlier answer, or posted.
* `PaymentCommand.Posts`, `CreditCommand.Posts`, `ManualCommand.Posts`: the data with a posting.
-/

namespace DoubleEntry

/-- Everything but the store, with a state of its own.  It answers in any way, and always. -/
structure Partners (σ : Type) where
  accounts : (c : AccountsCall) → σ → Except GatewayError c.Answer × σ
  audit : AuditRecord → σ → Except AuditError Unit × σ
  publish : (topic key : String) → Json → σ → Except PublishError Unit × σ
  now : σ → Instant × σ
  freshId : σ → Uuid × σ

/-- How a request is answered by the store and its partners. -/
def Partners.world {σ : Type} (o : Partners σ) :
    (r : Request) → Store × σ → Option r.Answer × (Store × σ)
  | .store q, (s, x) => (Surroundings.ofOutcome (s.serve q).1, ((s.serve q).2, x))
  | .accounts c, (s, x) => (some (o.accounts c x).1, (s, (o.accounts c x).2))
  | .audit r, (s, x) => (some (o.audit r x).1, (s, (o.audit r x).2))
  | .publish topic key payload, (s, x) =>
    (some (o.publish topic key payload x).1, (s, (o.publish topic key payload x).2))
  | .now, (s, x) => (some (o.now x).1, (s, (o.now x).2))
  | .freshId, (s, x) => (some (o.freshId x).1, (s, (o.freshId x).2))

/-- The request does not go to the store. -/
def Request.SparesStore : Request → Prop
  | store _ => False
  | _ => True

/-! ### Inserting rows -/

namespace Memory

variable {m : Memory}

theorem insert_ne_crashed {row : Row}
    (h : ∀ j, row = .journal j → ensureBalanced j.lines = .ok ()) :
    m.insert row ≠ .error .crashed := by
  cases row with
  | payment p => simp only [insert, insertPayment, conflict, Halt.refuse]; split_ifs <;> rintro ⟨⟩
  | step s => simp only [insert, insertStep, Halt.refuse]; split_ifs <;> rintro ⟨⟩
  | journal j =>
    simp only [insert, insertJournal, h j rfl, Halt.within, conflict, Halt.refuse, bind,
      Except.bind]
    split_ifs <;> rintro ⟨⟩
  | event e => simp only [insert, insertEvent, conflict, Halt.refuse]; split_ifs <;> rintro ⟨⟩
  | record r => simp only [insert, insertRecord, conflict, Halt.refuse]; split_ifs <;> rintro ⟨⟩

theorem run_insertAll_cases {rows : List Row}
    (h : ∀ j, .journal j ∈ rows → ensureBalanced j.lines = .ok ()) :
    (∃ e, ((Work.insertAll rows).run m).1 = .error (.refused e)) ∨
      (Work.insertAll rows).run m = (.ok (), m.addAll rows) := by
  induction rows generalizing m with
  | nil => exact .inr rfl
  | cons row rows ih =>
    rw [run_insertAll_cons]
    cases hrow : m.insert row with
    | error e =>
      cases e with
      | refused e => exact .inl ⟨e, rfl⟩
      | crashed =>
        exact absurd hrow (insert_ne_crashed fun j hj => h j (hj ▸ List.mem_cons_self))
    | ok m' =>
      obtain ⟨rfl, -⟩ := insert_eq_ok hrow
      exact ih fun j hj => h j (List.mem_cons_of_mem row hj)

end Memory

/-! ### Programs that end -/

namespace Program

variable {σ α : Type} {o : Partners σ} {m : Memory} {f : Bool} {Q : α → Memory → Prop}

/-- Carried out over the data, whatever the state of the partners, the program ends; its result and
the data after it are in the relation. -/
def EndsOver (o : Partners σ) (m : Memory) (f : Bool) (p : Program α) (Q : α → Memory → Prop) :
    Prop :=
  ∀ x, ∃ a m' f' x', p.run o.world (.ofMemory m f, x) = (some a, (.ofMemory m' f', x')) ∧ Q a m'

theorem endsOver_done {a : α} (h : Q a m) : (Program.done a).EndsOver o m f Q :=
  fun x => ⟨a, m, f, x, rfl, h⟩

theorem endsOver_ask {r : Request} {k : r.Answer → Program α} (hr : r.SparesStore)
    (h : ∀ a, (k a).EndsOver o m f Q) : (Program.ask r k).EndsOver o m f Q := by
  intro x
  cases r with
  | store q => exact hr.elim
  | accounts c => exact h (o.accounts c x).1 (o.accounts c x).2
  | audit r => exact h (o.audit r x).1 (o.audit r x).2
  | publish t key payload => exact h (o.publish t key payload x).1 (o.publish t key payload x).2
  | now => exact h (o.now x).1 (o.now x).2
  | freshId => exact h (o.freshId x).1 (o.freshId x).2

theorem endsOver_store {q : StoreRequest} {k : Except StoreError q.Value → Program α}
    {a : Except StoreError q.Value} {m' : Memory} {f' : Bool}
    (hanswer : Surroundings.ofOutcome ((Store.ofMemory m f).serve q).1 = some a)
    (hdata : ((Store.ofMemory m f).serve q).2 = .ofMemory m' f')
    (h : (k a).EndsOver o m' f' Q) : (Program.ask (.store q) k).EndsOver o m f Q := by
  intro x
  have hworld : o.world (.store q) (.ofMemory m f, x) = (some a, (.ofMemory m' f', x)) :=
    Prod.ext hanswer (Prod.ext hdata rfl)
  obtain ⟨b, m'', f'', x', hrun, hq⟩ := h x
  exact ⟨b, m'', f'', x', (run_ask hworld).trans hrun, hq⟩

theorem endsOver_record {key : String}
    {k : Except StoreError (Option IdempotencyRecord) → Program α}
    (h : (k (.ok (m.records.find? fun r => r.key = key))).EndsOver o m f Q) :
    (Program.ask (.store (.record key)) k).EndsOver o m f Q :=
  endsOver_store rfl rfl h

/-- **Rows are written** as a whole, or the data are left as they are. -/
theorem endsOver_post {rows : List Row} {k : Except StoreError Unit → Program α}
    (hrows : ∀ j, .journal j ∈ rows → ensureBalanced j.lines = .ok ())
    (fails : ∀ e f', (k (.error e)).EndsOver o m f' Q)
    (writes : (k (.ok ())).EndsOver o (m.addAll rows) f Q) :
    (Program.ask (.store (.post rows)) k).EndsOver o m f Q := by
  have hserve := Store.serve_ofMemory (.post rows) m f
  have hwork : (StoreRequest.post rows).work.run m = (Work.insertAll rows).run m := rfl
  simp only [StoreRequest.writes, if_true, hwork] at hserve
  obtain ⟨e, he⟩ | hok := Memory.run_insertAll_cases (m := m) hrows
  · have hrefused : (Store.ofMemory m f).serve (.post rows) =
        (.error (.refused e), .ofMemory m f) := by
      rw [hserve]
      generalize (Work.insertAll rows).run m = res at he
      obtain ⟨res, m'⟩ := res
      cases he
      rfl
    exact endsOver_store (by rw [hrefused]; rfl) (by rw [hrefused]) (fails e f)
  · rw [hok] at hserve
    cases f with
    | true => exact endsOver_store (by rw [hserve]; rfl) (by rw [hserve]; rfl) (fails _ false)
    | false => exact endsOver_store (by rw [hserve]; rfl) (by rw [hserve]; rfl) writes

theorem endsOver_freshIds {k : List Uuid → Program α} (h : ∀ ids, (k ids).EndsOver o m f Q)
    (n : Nat) : (Postings.freshIds n k).EndsOver o m f Q := by
  induction n generalizing k with
  | zero => exact h []
  | succ n ih => exact endsOver_ask trivial fun id => ih fun ids => h (id :: ids)

theorem endsOver_ofHalt {ε β : Type} {r : Except (Halt ε) β} {refused : ε → Program α}
    {k : β → Program α} (hr : r ≠ .error .crashed)
    (hrefused : ∀ e, (refused e).EndsOver o m f Q)
    (hk : ∀ b, r = .ok b → (k b).EndsOver o m f Q) : (ofHalt r refused k).EndsOver o m f Q := by
  rcases r with (e | _) | b
  · exact hrefused e
  · exact absurd rfl hr
  · exact hk b rfl

theorem EndsOver.mono {p : Program α} {Q' : α → Memory → Prop} (h : p.EndsOver o m f Q)
    (hQ : ∀ a m', Q a m' → Q' a m') : p.EndsOver o m f Q' := by
  intro x
  obtain ⟨a, m', f', x', hrun, hq⟩ := h x
  exact ⟨a, m', f', x', hrun, hQ a m' hq⟩

end Program

/-! ### How an operation ends -/

/-- How an operation ends, and the data after it: it was refused, it gave an earlier answer again,
or it posted. -/
inductive Conclusion {α : Type} (m : Memory) (Replays : α → Prop) (Posts : α → Memory → Prop) :
    Except ServiceError α → Memory → Prop
  | refused (e : ServiceError) : Conclusion m Replays Posts (.error e) m
  | replayed {a : α} (h : Replays a) : Conclusion m Replays Posts (.ok a) m
  | posted {a : α} {m' : Memory} (h : Posts a m') : Conclusion m Replays Posts (.ok a) m'

theorem Conclusion.mono {α : Type} {m m' : Memory} {Replays Replays' : α → Prop}
    {Posts Posts' : α → Memory → Prop} {res : Except ServiceError α}
    (h : Conclusion m Replays Posts res m') (hreplays : ∀ a, Replays a → Replays' a)
    (hposts : ∀ a m', Posts a m' → Posts' a m') : Conclusion m Replays' Posts' res m' := by
  cases h with
  | refused e => exact .refused e
  | replayed h => exact .replayed (hreplays _ h)
  | posted h => exact .posted (hposts _ _ h)

namespace Memory

/-- The data keep the answer under the key: it is that of the first record found. -/
def Keeps {α : Type} (m : Memory) (key operation : String) (dec : Decoder α) (a : α) : Prop :=
  ∃ r, m.records.find? (fun r => r.key = key) = some r ∧ r.replay operation dec = .ok a

/-- No answer is kept under the key. -/
def IsUnanswered (m : Memory) (key : String) : Prop := ∀ r ∈ m.records, r.key ≠ key

end Memory

/-- The data with a payment posted: one payment, two steps, one journal, one event and one record
more. -/
inductive PaymentCommand.Posts (c : PaymentCommand) (m : Memory) : PaymentPosted → Memory → Prop
  | intro {id : PaymentId} {journal : JournalId} {lineIds : Uuid × Uuid} {now : Instant}
    {entry : JournalEntry} {reserved booked : PaymentStep} (event : EventId)
    (unanswered : m.IsUnanswered c.key)
    (entry_eq : JournalEntry.forPayment journal lineIds id c.source c.destination c.currency
      c.amount now c.initiatedBy = .ok entry)
    (steps_eq : steps id entry.id now = [reserved, booked]) :
    Posts c m (answer id) {
      payments := m.payments ++ [c.payment id entry.id now]
      steps := m.steps ++ [reserved, booked]
      journals := m.journals ++ [entry]
      outbox := m.outbox ++ [.pending event "payment" id OutboxEvent.paymentPosted
        (c.payload id entry.id now) now]
      records := m.records ++ [.of c.key IdempotencyRecord.postPayment (answer id).toJson now] }

/-- The data with a top-up posted: one journal, one event and one record more. -/
inductive CreditCommand.Posts (c : CreditCommand) (m : Memory) : JournalPosted → Memory → Prop
  | intro {journal : JournalId} {lineIds : Uuid × Uuid} {now : Instant} {entry : JournalEntry}
    (event : EventId) (unanswered : m.IsUnanswered c.key)
    (entry_eq : JournalEntry.forTopUp journal lineIds c.account c.currency c.amount c.externalRef
      now c.initiatedBy = .ok entry) :
    Posts c m (.of entry.id) { m with
      journals := m.journals ++ [entry]
      outbox := m.outbox ++ [.pending event "ledger" entry.id OutboxEvent.ledgerPosted
        (c.payload entry.id now) now]
      records := m.records ++ [.of c.key IdempotencyRecord.creditAccount
        (JournalPosted.of entry.id).toJson now] }

/-- The data with a journal of given lines posted: one journal and one event more. -/
inductive ManualCommand.Posts (c : ManualCommand) (m : Memory) : JournalPosted → Memory → Prop
  | intro {journal : JournalId} {ids : List Uuid} {now : Instant} {entry : JournalEntry}
    {total : Decimal} (event : EventId)
    (entry_eq : JournalEntry.posted journal c.externalRef now c.initiatedBy c.currency
      (c.entryLines journal ids) = .ok entry)
    (total_eq : entry.totalDebit = some total) :
    Posts c m (.of entry.id) { m with
      journals := m.journals ++ [entry]
      outbox := m.outbox ++ [.pending event "ledger" entry.id OutboxEvent.manualPosted
        (c.payload entry total now) now] }

/-! ### Payments -/

namespace Payments

open Program

variable {σ α : Type} {o : Partners σ} {m : Memory} {f : Bool}
  {Q : Except ServiceError α → Memory → Prop} {k : Program (Except ServiceError α)}

theorem endsOver_unlessAnswered {key operation : String} {dec : Decoder α}
    (refused : ∀ e, Q (.error e) m) (replays : ∀ a, m.Keeps key operation dec a → Q (.ok a) m)
    (hk : m.IsUnanswered key → k.EndsOver o m f Q) :
    (unlessAnswered key operation dec k).EndsOver o m f Q := by
  refine endsOver_record ?_
  cases hfind : m.records.find? (fun r => r.key = key) with
  | none => exact hk (by simpa [Memory.IsUnanswered] using hfind)
  | some r =>
    cases hr : r.replay operation dec with
    | error e =>
      simp only [replayed, hr]
      exact endsOver_done (refused _)
    | ok a =>
      simp only [replayed, hr]
      exact endsOver_done (replays a ⟨r, hfind, hr⟩)

theorem endsOver_whenValid {source destination : AccountId} {currency : Currency} {amount : Decimal}
    (refused : ∀ e, Q (.error e) m) (hk : k.EndsOver o m f Q) :
    (whenValid source destination currency amount k).EndsOver o m f Q := by
  refine endsOver_ask trivial fun v => ?_
  rcases v with e | v
  · exact endsOver_done (refused _)
  · simp only [served]
    split_ifs
    · exact hk
    · exact endsOver_done (refused _)

/-- How a payment ends. -/
abbrev Concludes (c : PaymentCommand) (m : Memory) :
    Except ServiceError PaymentPosted → Memory → Prop :=
  Conclusion m (m.Keeps c.key IdempotencyRecord.postPayment PaymentPosted.decoder) (c.Posts m)

variable {c : PaymentCommand}

theorem endsOver_compensate (id : PaymentId) (e : StoreError) :
    (compensate c id e).EndsOver o m f (Concludes c m) := by
  have fails (e : ServiceError) : (Program.fail e).EndsOver o m f (Concludes c m) :=
    endsOver_done (.refused e)
  refine endsOver_ask trivial fun released => endsOver_ask trivial fun at_ =>
    endsOver_ask trivial fun _ => ?_
  cases e with
  | conflict _ =>
    exact endsOver_unlessAnswered .refused (fun _ => .replayed) fun _ => fails _
  | _ => exact fails _

theorem endsOver_conclude {id : PaymentId} {now : Instant} {m' : Memory}
    (h : c.Posts m (PaymentCommand.answer id) m') :
    (conclude c id now).EndsOver o m' f (Concludes c m) :=
  endsOver_ask trivial fun _ => endsOver_done (.posted h)

theorem endsOver_persist (hamount : c.amount.IsStored) (hfree : m.IsUnanswered c.key)
    (id : PaymentId) (now : Instant) :
    (persist c id now).EndsOver o m f (Concludes c m) := by
  refine endsOver_ask trivial fun journal => endsOver_ask trivial fun debitLine =>
    endsOver_ask trivial fun creditLine => endsOver_ofHalt
      (JournalEntry.posted_pair_ne_crashed hamount (debitLine, creditLine) _ _ _ _)
      (fun e => endsOver_compensate id (.domain e)) fun entry hentry =>
        endsOver_ask trivial fun event => endsOver_post ?_ (fun e _ => endsOver_compensate id e) ?_
  · intro j hj
    obtain rfl : j = entry := by
      simpa [PaymentCommand.rows, PaymentCommand.steps] using hj
    obtain ⟨rfl, hbalanced⟩ := JournalEntry.posted_eq_ok hentry
    exact hbalanced
  · refine endsOver_conclude ?_
    rw [Memory.addAll_eq]
    exact .intro event hfree hentry rfl

theorem endsOver_reserve (hamount : c.amount.IsStored) (hfree : m.IsUnanswered c.key) :
    (reserve c).EndsOver o m f (Concludes c m) := by
  refine endsOver_ask trivial fun id => endsOver_ask trivial fun held => ?_
  rcases held with e | held
  · exact endsOver_done (.refused _)
  · simp only [served]
    split_ifs
    · exact endsOver_ask trivial fun now => endsOver_persist hamount hfree id now
    · exact endsOver_done (.refused _)

theorem endsOver_run (hamount : c.amount.IsStored) : (run c).EndsOver o m f (Concludes c m) :=
  endsOver_unlessAnswered .refused (fun _ => .replayed) fun hfree =>
    endsOver_whenValid .refused (endsOver_reserve hamount hfree)

end Payments

/-! ### Postings without a payment -/

namespace Postings

open Program Payments

variable {σ : Type} {o : Partners σ} {m : Memory} {f : Bool}

/-- How a top-up ends. -/
abbrev Concludes (c : CreditCommand) (m : Memory) :
    Except ServiceError JournalPosted → Memory → Prop :=
  Conclusion m (m.Keeps c.key IdempotencyRecord.creditAccount JournalPosted.decoder) (c.Posts m)

theorem endsOver_persistCredit {c : CreditCommand} (hamount : c.amount.IsStored)
    (hfree : m.IsUnanswered c.key) : (persistCredit c).EndsOver o m f (Concludes c m) := by
  have fails (e : ServiceError) (f : Bool) : (Program.fail e).EndsOver o m f (Concludes c m) :=
    endsOver_done (.refused e)
  refine endsOver_ask trivial fun now => endsOver_ask trivial fun journal =>
    endsOver_ask trivial fun debitLine => endsOver_ask trivial fun creditLine => endsOver_ofHalt
      (JournalEntry.posted_pair_ne_crashed hamount (debitLine, creditLine) _ _ _ _)
      (fun e => fails _ f) fun entry hentry => endsOver_ask trivial fun event =>
        endsOver_post ?_ (fun e f' => ?_) (endsOver_ask trivial fun _ => endsOver_done ?_)
  · intro j hj
    obtain rfl : j = entry := by simpa [CreditCommand.rows] using hj
    obtain ⟨rfl, hbalanced⟩ := JournalEntry.posted_eq_ok hentry
    exact hbalanced
  · cases e with
    | conflict _ =>
      exact endsOver_unlessAnswered .refused (fun _ => .replayed) fun _ => fails _ f'
    | _ => exact fails _ f'
  · have hid : entry.id = journal := by rw [(JournalEntry.posted_eq_ok hentry).1]
    have hposts := CreditCommand.Posts.intro (m := m) event hfree hentry
    rw [Memory.addAll_eq, ← hid]
    refine .posted ?_
    simpa [CreditCommand.rows, List.filterMap_cons, Row.payment?, Row.step?, Row.journal?,
      Row.event?, Row.record?] using hposts

theorem endsOver_runCredit {c : CreditCommand} (hamount : c.amount.IsStored) :
    (runCredit c).EndsOver o m f (Concludes c m) :=
  endsOver_unlessAnswered .refused (fun _ => .replayed) fun hfree =>
    endsOver_whenValid .refused (endsOver_persistCredit hamount hfree)

/-- How a journal of given lines ends; it has no key, so no answer is kept. -/
abbrev ConcludesManual (c : ManualCommand) (m : Memory) :
    Except ServiceError JournalPosted → Memory → Prop :=
  Conclusion m (fun _ => False) (c.Posts m)

theorem endsOver_persistManual {c : ManualCommand} (hlines : ∀ l ∈ c.lines, l.IsStored)
    (hfew : c.lines.length ≤ ManualCommand.maxLines) (now : Instant) (journal : JournalId)
    (ids : List Uuid) :
    (persistManual c now journal ids).EndsOver o m f (ConcludesManual c m) := by
  have fails (e : ServiceError) (f : Bool) :
      (Program.fail e).EndsOver o m f (ConcludesManual c m) := endsOver_done (.refused e)
  have hstored : ∀ l ∈ c.entryLines journal ids, l.IsStored journal :=
    ManualCommand.isStored_entryLines hlines
  have hlength : (c.entryLines journal ids).length ≤ ManualCommand.maxLines :=
    ManualCommand.length_entryLines_le.trans hfew
  refine endsOver_ofHalt (JournalEntry.posted_ne_crashed hstored hlength) (fun e => fails _ f)
    fun entry hentry => ?_
  obtain ⟨hentry', hbalanced⟩ := JournalEntry.posted_eq_ok hentry
  have hdebits : ∀ d ∈ (c.entryLines journal ids).map EntryLine.debit, d.IsStored :=
    List.forall_mem_map.2 fun l hl => (hstored l hl).debit
  obtain ⟨total, htotal, -⟩ := Decimal.exists_sum hdebits (by rwa [List.length_map])
  have hsum : entry.totalDebit = some total := by rw [hentry']; exact htotal
  rw [hsum]
  refine endsOver_ask trivial fun event => endsOver_post ?_ (fun e f' => fails _ f')
    (endsOver_ask trivial fun _ => endsOver_done ?_)
  · intro j hj
    obtain rfl : j = entry := by simpa [ManualCommand.rows] using hj
    rw [hentry']
    exact hbalanced
  · have hid : entry.id = journal := by rw [hentry']
    have hposts := ManualCommand.Posts.intro (m := m) event hentry hsum
    rw [Memory.addAll_eq, ← hid]
    refine .posted ?_
    simpa [ManualCommand.rows, List.filterMap_cons, Row.payment?, Row.step?, Row.journal?,
      Row.event?, Row.record?] using hposts

theorem endsOver_runManual {c : ManualCommand} (hlines : ∀ l ∈ c.lines, l.IsStored)
    (hfew : c.lines.length ≤ ManualCommand.maxLines) :
    (runManual c).EndsOver o m f (ConcludesManual c m) :=
  endsOver_ask trivial fun now => endsOver_ask trivial fun journal =>
    endsOver_freshIds (endsOver_persistManual hlines hfew now journal) _

end Postings

/-! ### The three operations -/

namespace Partners

variable {σ : Type}

/-- **All or nothing.**  Over any data, among any partners and whether or not the next write is made
to fail, a payment, a top-up and a journal of given lines end, and they leave the data as they are
if they fail or give an earlier answer again; otherwise they add the rows of the posting. -/
theorem all_or_nothing (o : Partners σ) (m : Memory) (f : Bool) :
    (∀ r, (Payments.post r).EndsOver o m f <| Conclusion m
      (fun a => ∃ c, PaymentCommand.ofRequest r = .ok c ∧
        m.Keeps c.key IdempotencyRecord.postPayment PaymentPosted.decoder a)
      (fun a m' => ∃ c, PaymentCommand.ofRequest r = .ok c ∧ c.Posts m a m')) ∧
    (∀ r, (Postings.credit r).EndsOver o m f <| Conclusion m
      (fun a => ∃ c, CreditCommand.ofRequest r = .ok c ∧
        m.Keeps c.key IdempotencyRecord.creditAccount JournalPosted.decoder a)
      (fun a m' => ∃ c, CreditCommand.ofRequest r = .ok c ∧ c.Posts m a m')) ∧
    (∀ r, (Postings.postManual r).EndsOver o m f <| Conclusion m
      (fun _ => False)
      (fun a m' => ∃ c, ManualCommand.ofRequest r = .ok c ∧ c.Posts m a m')) := by
  refine ⟨fun r => ?_, fun r => ?_, fun r => ?_⟩
  · unfold Payments.post
    split
    · rename_i c hc
      refine (Payments.endsOver_run (PaymentCommand.isStored_amount hc)).mono fun a m' h => ?_
      exact h.mono (fun a ha => ⟨c, hc, ha⟩) fun a m' hm' => ⟨c, hc, hm'⟩
    · exact Program.endsOver_done (.refused _)
  · unfold Postings.credit
    split
    · rename_i c hc
      refine (Postings.endsOver_runCredit (CreditCommand.isStored_amount hc)).mono fun a m' h => ?_
      exact h.mono (fun a ha => ⟨c, hc, ha⟩) fun a m' hm' => ⟨c, hc, hm'⟩
    · exact Program.endsOver_done (.refused _)
  · unfold Postings.postManual
    split
    · rename_i c hc
      obtain ⟨hlines, hfew⟩ := ManualCommand.isStored_lines hc
      refine (Postings.endsOver_runManual hlines hfew).mono fun a m' h => ?_
      exact h.mono (fun _ ha => ha) fun a m' hm' => ⟨c, hc, hm'⟩
    · exact Program.endsOver_done (.refused _)

/-- Partners that grant everything, with the number of the next identifier. -/
def granting : Partners Nat where
  accounts
    | .validate _ _ _ _, n => (.ok .accepted, n)
    | .reserve _, n | .release _, n => (.ok ⟨true, "done", none⟩, n)
    | .summaries _, n => (.ok [], n)
  audit _ n := (.ok (), n)
  publish _ _ _ n := (.ok (), n)
  now n := (.epoch, n)
  freshId n := (.ofNat n, n + 1)

/-- Payments, steps, journals, events and records that are left by a payment that is made twice. -/
def rowsLeft (f : Bool) : List Nat :=
  let again := (Payments.post Ledger.raceRequest).run granting.world
  let m := (again (again (.ofMemory .empty f, 1)).2).2.1.memory
  [m.payments.length, m.steps.length, m.journals.length, m.outbox.length, m.records.length]

/-- The second payment is a replay; if the first write fails, it is the one that posts. -/
example : rowsLeft false = [1, 2, 1, 1, 1] ∧ rowsLeft true = [1, 2, 1, 1, 1] := by decide +kernel

end Partners

end DoubleEntry
