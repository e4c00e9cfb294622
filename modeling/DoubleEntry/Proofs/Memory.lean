import DoubleEntry.Store.Basic
import Mathlib.Data.List.Nodup
import Mathlib.Tactic.SplitIfs

/-!
# Units of work on the store in memory

A unit of work that inserts rows either adds all of them, each to its table, or changes nothing;
one of the outbox changes only who works on an event and whether it was published; one that reads
changes nothing (`Store.serve_ofMemory`, `Memory.bare_of_run`).

## Main definitions

* `Store.ofMemory`: a store in memory. `Store.memory`: its data.
* `Memory.addAll`: the data with some rows added, whatever is there already.
* `OutboxEvent.bare`, `Memory.bare`: an event, and all of them, as they were inserted.
* `Memory.Sound`: no two rows of a table have one key.
-/

namespace DoubleEntry

namespace Store

/-- A store in memory. -/
def ofMemory (m : Memory) (failsNext : Bool) : Store := ⟨.memory m, true, failsNext⟩

/-- The data of a store in memory. -/
def memory (s : Store) : Memory :=
  match s.data with
  | .memory m => m
  | _ => .empty

@[simp] theorem memory_ofMemory (m : Memory) (f : Bool) : (ofMemory m f).memory = m := rfl

@[simp] theorem failNext_ofMemory (m : Memory) (f : Bool) :
    (ofMemory m f).failNext = ofMemory m true := rfl

theorem run_memory {α : Type} (w : Work α) (m : Memory) :
    w.run (Database.memory m) = ((w.run m).1, .memory (w.run m).2) := by
  induction w generalizing m with
  | done a => rfl
  | call c k ih =>
    have hc : Backend.call c (Database.memory m) =
        ((Backend.call c m).1, Database.memory (Backend.call c m).2) := rfl
    simp only [Work.run, hc]
    rcases Backend.call c m with ⟨_ | a, m'⟩
    · rfl
    · exact ih a m'

/-- **Units of work in memory.**  One that reads leaves the data as they are.  One that writes takes
effect as a whole if it succeeds, unless the write is made to fail, and not at all otherwise. -/
theorem serve_ofMemory (r : StoreRequest) (m : Memory) (f : Bool) :
    (ofMemory m f).serve r =
      if r.writes then
        match r.work.run m with
        | (.error h, _) => (.error h, ofMemory m f)
        | (.ok a, m') =>
          if f then (Halt.refuse (.transaction "commit failed"), ofMemory m false)
          else (.ok a, ofMemory m' f)
      else ((r.work.run m).1, ofMemory m f) := by
  unfold serve
  split
  · simp only [write, ofMemory, run_memory, conclude]
    rcases r.work.run m with ⟨_ | a, m'⟩ <;> rfl
  · simp only [read, view, ofMemory, run_memory, afterRead, if_true]

end Store

namespace Row

/-- The payment of a row. -/
def payment? : Row → Option Payment
  | payment p => some p
  | _ => none

/-- The step of a row. -/
def step? : Row → Option PaymentStep
  | step s => some s
  | _ => none

/-- The journal of a row. -/
def journal? : Row → Option JournalEntry
  | journal j => some j
  | _ => none

/-- The event of a row. -/
def event? : Row → Option OutboxEvent
  | event e => some e
  | _ => none

/-- The record of a row. -/
def record? : Row → Option IdempotencyRecord
  | record r => some r
  | _ => none

end Row

/-- The rows that a unit of work inserts. -/
def StoreRequest.rows : StoreRequest → List Row
  | post rows => rows
  | _ => []

/-- The event as it was inserted: nobody works on it, and it was not published. -/
def OutboxEvent.bare (e : OutboxEvent) : OutboxEvent :=
  .pending e.id e.aggregateType e.aggregateId e.eventType e.payload e.createdAt

namespace Memory

/-- The data with a row added to its table. -/
def add (m : Memory) : Row → Memory
  | .payment p => { m with payments := m.payments ++ [p] }
  | .step s => { m with steps := m.steps ++ [s] }
  | .journal j => { m with journals := m.journals ++ [j] }
  | .event e => { m with outbox := m.outbox ++ [e] }
  | .record r => { m with records := m.records ++ [r] }

/-- The data with some rows added, each to its table. -/
def addAll (m : Memory) (rows : List Row) : Memory := rows.foldl add m

/-- The data with every event as it was inserted. -/
def bare (m : Memory) : Memory := { m with outbox := m.outbox.map OutboxEvent.bare }

/-- No two rows of a table have one key. -/
structure Sound (m : Memory) : Prop where
  paymentIds : (m.payments.map (·.id)).Nodup
  paymentKeys : (m.payments.map (·.idempotencyKey)).Nodup
  journalIds : (m.journals.map (·.id)).Nodup
  eventIds : (m.outbox.map (·.id)).Nodup
  recordKeys : (m.records.map (·.key)).Nodup

theorem sound_empty : empty.Sound := by
  constructor <;> exact List.nodup_nil

/-! ### Adding rows -/

@[simp] theorem addAll_nil (m : Memory) : m.addAll [] = m := rfl

@[simp] theorem addAll_cons (m : Memory) (r : Row) (rows : List Row) :
    m.addAll (r :: rows) = (m.add r).addAll rows := rfl

theorem addAll_append (m : Memory) (rows rows' : List Row) :
    m.addAll (rows ++ rows') = (m.addAll rows).addAll rows' := by
  simp [addAll]

theorem addAll_eq (m : Memory) (rows : List Row) :
    m.addAll rows = ⟨m.payments ++ rows.filterMap Row.payment?,
      m.steps ++ rows.filterMap Row.step?, m.journals ++ rows.filterMap Row.journal?,
      m.outbox ++ rows.filterMap Row.event?, m.records ++ rows.filterMap Row.record?⟩ := by
  induction rows generalizing m with
  | nil => simp
  | cons r rows ih =>
    rw [addAll_cons, ih]
    cases r <;> simp [add, List.filterMap_cons, Row.payment?, Row.step?, Row.journal?, Row.event?,
      Row.record?]

/-- Added rows are told apart from the claims on the events that were there before. -/
theorem bare_addAll {m m' : Memory} (h : m.bare = m'.bare) (rows : List Row) :
    (m.addAll rows).bare = (m'.addAll rows).bare := by
  simp only [bare, Memory.mk.injEq] at h
  obtain ⟨hp, hs, hj, ho, hr⟩ := h
  simp only [addAll_eq, bare, List.map_append, hp, hs, hj, ho, hr]

theorem nodup_concat {α β : Type} [DecidableEq β] {f : α → β} {l : List α} {a : α}
    (h : (l.map f).Nodup) (ha : ¬ (l.any fun b => f b = f a) = true) :
    ((l ++ [a]).map f).Nodup := by
  have hne : ∀ b ∈ l, f b ≠ f a := by simpa using ha
  rw [List.map_append, List.nodup_append]
  refine ⟨h, by simp, fun x hx y hy => ?_⟩
  obtain ⟨b, hb, rfl⟩ := List.mem_map.1 hx
  obtain rfl : y = f a := by simpa using hy
  exact hne b hb

theorem filter_eq_singleton {α β : Type} [DecidableEq β] {f : α → β} {l : List α} {a : α}
    (h : (l.map f).Nodup) (ha : a ∈ l) : l.filter (fun b => f b = f a) = [a] := by
  induction l with
  | nil => cases ha
  | cons b l ih =>
    rw [List.map_cons, List.nodup_cons] at h
    obtain rfl | ha := List.mem_cons.1 ha
    · have hl : l.filter (fun b => f b = f a) = [] := by
        refine List.filter_eq_nil_iff.2 fun b hb hab => h.1 ?_
        exact List.mem_map.2 ⟨b, hb, by simpa using hab⟩
      simp [hl]
    · have hb : f b ≠ f a := fun hab => h.1 (hab ▸ List.mem_map_of_mem ha)
      simp [hb, ih h.2 ha]

theorem insert_eq_ok {m m' : Memory} {row : Row} (h : m.insert row = .ok m') :
    m' = m.add row ∧ (m.Sound → m'.Sound) := by
  cases row with
  | payment p =>
    simp only [insert, insertPayment, conflict, Halt.refuse] at h
    split_ifs at h with hid hkey
    cases h
    exact ⟨rfl, fun ⟨h1, h2, h3, h4, h5⟩ =>
      ⟨nodup_concat h1 hid, nodup_concat h2 hkey, h3, h4, h5⟩⟩
  | step s =>
    simp only [insert, insertStep, Halt.refuse] at h
    split_ifs at h
    cases h
    exact ⟨rfl, fun ⟨h1, h2, h3, h4, h5⟩ => ⟨h1, h2, h3, h4, h5⟩⟩
  | journal j =>
    simp only [insert, insertJournal, conflict, Halt.refuse] at h
    cases hb : ensureBalanced j.lines with
    | error e => rw [hb] at h; cases h
    | ok _ =>
      simp only [hb, Halt.within, bind, Except.bind] at h
      split_ifs at h with hid
      cases h
      exact ⟨rfl, fun ⟨h1, h2, h3, h4, h5⟩ => ⟨h1, h2, nodup_concat h3 hid, h4, h5⟩⟩
  | event e =>
    simp only [insert, insertEvent, conflict, Halt.refuse] at h
    split_ifs at h with hid
    cases h
    exact ⟨rfl, fun ⟨h1, h2, h3, h4, h5⟩ => ⟨h1, h2, h3, nodup_concat h4 hid, h5⟩⟩
  | record r =>
    simp only [insert, insertRecord, conflict, Halt.refuse] at h
    split_ifs at h with hid
    cases h
    exact ⟨rfl, fun ⟨h1, h2, h3, h4, h5⟩ => ⟨h1, h2, h3, h4, nodup_concat h5 hid⟩⟩

theorem run_insertAll_cons (r : Row) (rows : List Row) (m : Memory) :
    (Work.insertAll (r :: rows)).run m =
      match m.insert r with
      | .ok m' => (Work.insertAll rows).run m'
      | .error h => (.error h, m) := by
  have hc : Backend.call (Call.insert r) m = m.changing ((m.insert r).map fun m => ((), m)) := rfl
  rw [Work.insertAll, Work.run, hc]
  rcases m.insert r with _ | m' <;> rfl

/-- **Inserting rows.**  If all of them can be inserted, all of them were added. -/
theorem run_insertAll {m m' : Memory} {rows : List Row} {u : Unit}
    (h : (Work.insertAll rows).run m = (.ok u, m')) :
    m' = m.addAll rows ∧ (m.Sound → m'.Sound) := by
  induction rows generalizing m with
  | nil => cases h; exact ⟨rfl, id⟩
  | cons r rows ih =>
    rw [run_insertAll_cons] at h
    cases hr : m.insert r with
    | error e => rw [hr] at h; cases h
    | ok m₁ =>
      rw [hr] at h
      obtain ⟨hadd, hsound⟩ := ih h
      obtain ⟨hone, hone'⟩ := insert_eq_ok hr
      exact ⟨by rw [hadd, hone, addAll_cons], fun hm => hsound (hone' hm)⟩

/-! ### The outbox -/

/-- The function changes only who works on an event and whether it was published. -/
def KeepsEvents (f : OutboxEvent → OutboxEvent) : Prop := ∀ e, (f e).bare = e.bare

theorem keepsEvents_claimed (owner : String) (now : Instant) : KeepsEvents (claimed owner now) :=
  fun _ => rfl

theorem keepsEvents_publishedAt (now : Instant) : KeepsEvents (publishedAt now) := fun _ => rfl

theorem keepsEvents_release (owner : String) :
    KeepsEvents fun e => if isHeldBy owner e then unclaimed e else e := by
  intro e
  dsimp only
  split_ifs <;> rfl

theorem bare_update {f : OutboxEvent → OutboxEvent} (hf : KeepsEvents f) (ids : List EventId)
    (m : Memory) : (m.update ids f).bare = m.bare := by
  have h : ∀ e : OutboxEvent, (if ids.contains e.id then f e else e).bare = e.bare := by
    intro e
    split_ifs
    · exact hf e
    · rfl
  simp only [bare, update, List.map_map, Function.comp_def, h]

theorem Sound.of_bare {m m' : Memory} (h : m'.bare = m.bare) (hm : m.Sound) : m'.Sound := by
  -- identifiers of events are seen in the bare events
  have hid : ∀ n : Memory, n.outbox.map (·.id) = n.bare.outbox.map (·.id) := by
    intro n
    simp [bare, OutboxEvent.bare, OutboxEvent.pending, Function.comp_def]
  have hp : m'.bare.payments = m.bare.payments := by rw [h]
  have hj : m'.bare.journals = m.bare.journals := by rw [h]
  have hr : m'.bare.records = m.bare.records := by rw [h]
  simp only [bare] at hp hj hr
  refine ⟨hp ▸ hm.paymentIds, hp ▸ hm.paymentKeys, hj ▸ hm.journalIds, ?_, hr ▸ hm.recordKeys⟩
  rw [hid, h, ← hid]
  exact hm.eventIds

/-! ### Units of work of the ledger -/

theorem run_single (c : Call) (m : Memory) : (Work.single c).run m = Backend.call c m := by
  simp only [Work.single, Work.run]
  rcases Backend.call c m with ⟨_ | a, m'⟩ <;> rfl

theorem run_payment_snd (id : PaymentId) (m : Memory) :
    ((StoreRequest.payment id).work.run m).2 = m := by
  have hc : Backend.call (Call.payment id) m = (.ok (m.payments.find? fun p => p.id = id), m) := rfl
  simp only [StoreRequest.work, Work.run, hc]
  cases m.payments.find? fun p => p.id = id <;> rfl

theorem run_claim (limit : Nat) (owner : String) (now : Instant) (ttl : Int) (m : Memory) :
    (StoreRequest.claim limit owner now ttl).work.run m =
      match m.batch limit now ttl with
      | .ok es => (.ok (es.map (claimed owner now)),
          m.update (es.map OutboxEvent.id) (claimed owner now))
      | .error h => (.error h, m) := by
  have hc : (StoreRequest.claim limit owner now ttl).work.run m =
      m.changing (m.claim limit owner now ttl) := run_single (.claim limit owner now ttl) m
  rw [hc, claim]
  rcases m.batch limit now ttl with _ | es <;> rfl

/-- The data after the end of an iteration of a worker. -/
def settled (published : List EventId) (now : Instant) (rest : List EventId) (owner : String)
    (m : Memory) : Memory :=
  (m.update published (publishedAt now)).update rest
    fun e => if isHeldBy owner e then unclaimed e else e

theorem update_nil (f : OutboxEvent → OutboxEvent) (m : Memory) : m.update [] f = m := by
  simp [update]

theorem run_settle (published : List EventId) (now : Instant) (rest : List EventId)
    (owner : String) (m : Memory) :
    (StoreRequest.settle published now rest owner).work.run m =
      (.ok (), settled published now rest owner m) := by
  -- an update of no events is left out of the unit of work
  rcases published with _ | ⟨p, ps⟩ <;> rcases rest with _ | ⟨r, rs⟩
  · rw [settled, update_nil, update_nil]
    rfl
  · rw [settled, update_nil]
    rfl
  · rw [settled, update_nil]
    rfl
  · rfl

/-- **What a unit of work does to the data.**  Told apart from the claims on events, it adds the
rows that it inserts. -/
theorem bare_of_run {r : StoreRequest} {m m' : Memory} {a : r.Value}
    (h : r.work.run m = (.ok a, m')) :
    m'.bare = (m.addAll r.rows).bare ∧ (m.Sound → m'.Sound) := by
  have unchanged : ∀ n : Memory, n.bare = m.bare →
      n.bare = (m.addAll []).bare ∧ (m.Sound → n.Sound) :=
    fun n hn => ⟨hn, Sound.of_bare hn⟩
  cases r with
  | record key => cases h; exact unchanged m rfl
  | payment id =>
    have hm := run_payment_snd id m
    rw [h] at hm
    exact unchanged m' (congrArg bare hm)
  | activity l => cases h; exact unchanged m rfl
  | post rows =>
    obtain ⟨rfl, hs⟩ := run_insertAll h
    exact ⟨rfl, hs⟩
  | claim limit owner now ttl =>
    rw [run_claim] at h
    cases hb : m.batch limit now ttl with
    | error e => rw [hb] at h; cases h
    | ok es =>
      rw [hb] at h
      cases h
      exact unchanged _ (bare_update (keepsEvents_claimed owner now) _ m)
  | settle published now rest owner =>
    rw [run_settle] at h
    cases h
    refine unchanged _ ?_
    rw [settled, bare_update (keepsEvents_release owner), bare_update (keepsEvents_publishedAt now)]

end Memory

end DoubleEntry
