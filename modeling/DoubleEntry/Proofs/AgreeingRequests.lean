import DoubleEntry.Proofs.Agreement
import DoubleEntry.Proofs.OutboxRows

/-!
# Requests to the store

Each request that the services and the workers make of the store is answered by its tables as it is
in memory, but for the number of places of amounts, and what is kept is kept by it.

## Main results

* `Session.agrees_record`, `Session.agrees_payment`, `Session.agrees_activity`: requests that read.
* `Session.agrees_post`, `Session.agrees_claim`, `Session.agrees_settle`: requests that write.
-/

namespace DoubleEntry

namespace Session

variable {α : Type} {o : Outside} {clock times : List Instant} {m : Memory} {ids : List Uuid}
  {sc : Scene}

/-! ### Reading -/

theorem agrees_record {key : String} {k : Except StoreError (Option IdempotencyRecord) → Program α}
    (h : Fit clock m ids times sc)
    (hk : Agrees o clock (k (.ok (m.records.find? fun r => r.key = key))) m sc) :
    Agrees o clock (.ask (.store (.record key)) k) m sc := by
  have hcall : Backend.call (Call.record key) m.tables =
      (.ok (m.records.find? fun r => r.key = key), m.tables) := Tables.call_record h.stored key
  exact agrees_store (Store.serve_ofMemory_of_ok rfl fun _ => rfl)
    (Store.serve_ofTables (Work.run_call hcall)) rfl hk

theorem agrees_payment {id : PaymentId}
    {k : Except StoreError (Option (Payment × List PaymentStep)) → Program α}
    (h : Fit clock m ids times sc)
    (hsame : ∀ p ∈ m.payments, ∀ steps,
      k (.ok (some (p.atSix, steps))) = k (.ok (some (p, steps))))
    (hk : ∀ found, Agrees o clock (k (.ok found)) m sc) :
    Agrees o clock (.ask (.store (.payment id)) k) m sc := by
  have hmemory : Backend.call (Call.payment id) m =
      (.ok (m.payments.find? fun p => p.id = id), m) := rfl
  have htables : Backend.call (Call.payment id) m.tables =
      (.ok ((m.payments.find? fun p => p.id = id).map Payment.atSix), m.tables) :=
    Tables.call_payment h.stored id
  have hsteps : Backend.call (Call.steps id) m.tables = (.ok (m.stepsOf id), m.tables) :=
    congrArg (·, m.tables) (Tables.stepsOf_tables h.stored id)
  cases hfound : m.payments.find? fun p => p.id = id with
  | none =>
    rw [hfound] at hmemory htables
    exact agrees_store (Store.serve_ofMemory_of_ok (Work.run_call hmemory) fun _ => rfl)
      (Store.serve_ofTables (Work.run_call htables)) rfl (hk none)
  | some p =>
    rw [hfound] at hmemory htables
    exact agrees_store
      (Store.serve_ofMemory_of_ok ((Work.run_call hmemory).trans (Work.run_call rfl)) fun _ => rfl)
      (Store.serve_ofTables ((Work.run_call htables).trans (Work.run_call hsteps)))
      (hsame p (List.mem_of_find?_eq_some hfound) _) (hk (some (p, m.stepsOf id)))

theorem agrees_activity {l : Listing} {k : Except StoreError (List JournalEntry) → Program α}
    (h : Fit clock m ids times sc) (hstart : l.start.IsWhole) (hstop : l.stop.IsWhole)
    (hsame : ∀ entries, (∀ j ∈ entries, j.IsStored) →
      k (.ok (entries.map JournalEntry.atSix)) = k (.ok entries))
    (hk : ∀ entries, Agrees o clock (k (.ok entries)) m sc) :
    Agrees o clock (.ask (.store (.activity l)) k) m sc := by
  have htables : Backend.call (Call.activity l) m.tables =
      (.ok ((m.activity l).map JournalEntry.atSix), m.tables) :=
    congrArg (·, m.tables) (Tables.activity_tables h.stored h.journalIds hstart hstop)
  have hstored : ∀ j ∈ m.activity l, j.IsStored := fun j hj =>
    h.stored.journals j (List.mem_of_mem_filter (List.mem_mergeSort.1
      (List.mem_of_mem_drop (List.mem_of_mem_take hj))))
  exact agrees_store (Store.serve_ofMemory_of_ok (Work.run_call rfl) fun _ => rfl)
    (Store.serve_ofTables (Work.run_call htables)) (hsame _ hstored) (hk (m.activity l))

/-! ### Posting -/

/-- **Rows are posted** under the identifiers and with the reading that the program was given. -/
theorem agrees_post {rows : List Row} {k : Except StoreError Unit → Program α}
    (h : Fit clock m (rows.flatMap Row.ids)
      ((rows.filterMap Row.event?).map (·.createdAt)) sc)
    (hstored : ∀ r ∈ rows, r.IsStored) (hsuits : m.SuitsAll rows)
    (hkeys : ∀ p ∈ rows.filterMap Row.payment?,
      ∃ r ∈ rows.filterMap Row.record?, r.key = p.idempotencyKey)
    (hk : ∀ m', Fit clock m' [] [] sc → Agrees o clock (k (.ok ())) m' sc) :
    Agrees o clock (.ask (.store (.post rows)) k) m sc := by
  have hids : (rows.flatMap Row.ids ++ m.ids).Nodup :=
    List.perm_append_comm.nodup_iff.1 h.distinct.of_append_left
  have hfit : Fit clock (m.addAll rows) [] [] sc := by
    refine ⟨h.stored.addAll hstored, ?_, ?_, fun t ht => h.given (List.mem_append_right _ ht), ?_⟩
    · have hperm := (m.ids_addAll rows).trans List.perm_append_comm
      rw [List.append_nil]
      exact (hperm.append_right sc.ids).nodup_iff.2 h.distinct
    · rw [Memory.addAll_eq, List.map_append, List.append_nil]
      exact h.inOrder
    · rw [Memory.addAll_eq]
      intro p hp
      obtain hp | hp := List.mem_append.1 hp
      · obtain ⟨r, hr, hkey⟩ := h.keys p hp
        exact ⟨r, List.mem_append_left _ hr, hkey⟩
      · obtain ⟨r, hr, hkey⟩ := hkeys p hp
        exact ⟨r, List.mem_append_right _ hr, hkey⟩
  exact agrees_store
    (Store.serve_ofMemory_of_ok (Memory.run_insertAll_of_suits hids hsuits) (fun h => by cases h))
    (Store.serve_ofTables (Tables.run_insertAll_of_suits hids hsuits)) rfl (hk _ hfit)

/-! ### The outbox -/

/-- Who works on an event, and whether it was published, is not looked at by what is kept. -/
theorem Fit.update (h : Fit clock m ids times sc) {f : OutboxEvent → OutboxEvent}
    (hf : Memory.KeepsEvents f) (hstored : ∀ e : OutboxEvent, e.IsStored → (f e).IsStored)
    (changed : List EventId) : Fit clock (m.update changed f) ids times sc := by
  have hsame : ∀ {β : Type} {g : OutboxEvent → β}, (∀ e, g (f e) = g e) →
      (m.update changed f).outbox.map g = m.outbox.map g := by
    intro β g hg
    rw [Memory.update, List.map_map]
    refine List.map_congr_left fun e _ => ?_
    rw [Function.comp_apply]
    split_ifs
    · exact hg e
    · rfl
  have hid : ∀ e, (f e).id = e.id := fun e => OutboxEvent.id_eq_of_bare (hf e)
  have hcreated : ∀ e, (f e).createdAt = e.createdAt := fun e => by
    have := congrArg OutboxEvent.createdAt (hf e)
    exact this
  refine ⟨⟨h.stored.payments, h.stored.steps, h.stored.journals, ?_, h.stored.records⟩, ?_, ?_,
    h.given, h.keys⟩
  · refine List.forall_mem_map.2 fun e he => ?_
    split_ifs
    · exact hstored e (h.stored.outbox e he)
    · exact h.stored.outbox e he
  · have hids : (m.update changed f).ids = m.ids := by
      rw [Memory.ids, hsame hid]
      rfl
    rw [hids]
    exact h.distinct
  · rw [hsame hcreated]
    exact h.inOrder

theorem agrees_claim {limit : Nat} {owner : String} {now stale : Instant} {ttl : Int}
    {k : Except StoreError (List OutboxEvent) → Program α} (h : Fit clock m ids times sc)
    (hnow : now.IsWhole) (hstale : now.shift (-ttl) = some stale)
    (hmicro : stale.nanos % 1000 = 0) (hyear : stale.year ≤ 9999)
    (hk : ∀ events m', Fit clock m' ids times sc → Agrees o clock (k (.ok events)) m' sc) :
    Agrees o clock (.ask (.store (.claim limit owner now ttl)) k) m sc := by
  have horder : m.InOrder := h.inOrder.sublist
    ((List.sublist_append_left _ _).trans (List.sublist_append_left _ _))
  obtain ⟨batch, -, hbatch, htables⟩ := Tables.claim_tables limit owner h.stored horder h.eventIds
    hnow hstale hmicro hyear
  have hmemory : (StoreRequest.claim limit owner now ttl).work.run m =
      (.ok (batch.map (Memory.claimed owner now)),
        m.update (batch.map (·.id)) (Memory.claimed owner now)) := by
    rw [Memory.run_claim, hbatch]
  have hfit := h.update (Memory.keepsEvents_claimed owner now) (fun e he => ⟨he.payload,
    he.publishedAt, by rintro i ⟨⟩; exact hnow, he.createdAt⟩) (batch.map (·.id))
  exact agrees_store (Store.serve_ofMemory_of_ok hmemory fun h => by cases h)
    (Store.serve_ofTables (Work.run_call htables)) rfl (hk _ _ hfit)

theorem agrees_settle {published rest : List EventId} {owner : String} {now : Instant}
    {k : Except StoreError Unit → Program α} (h : Fit clock m ids times sc)
    (hnow : published = [] ∨ now.IsWhole)
    (hk : ∀ m', Fit clock m' ids times sc → Agrees o clock (k (.ok ())) m' sc) :
    Agrees o clock (.ask (.store (.settle published now rest owner)) k) m sc := by
  have hmarked : Fit clock (m.update published (Memory.publishedAt now)) ids times sc := by
    obtain rfl | hnow := hnow
    · rw [Memory.update_nil]
      exact h
    · exact h.update (Memory.keepsEvents_publishedAt now) (fun e he => ⟨he.payload,
        by rintro i ⟨⟩; exact hnow, by rintro i ⟨⟩, he.createdAt⟩) published
  have hfit : Fit clock (Memory.settled published now rest owner m) ids times sc := by
    refine hmarked.update (Memory.keepsEvents_release owner) (fun e he => ?_) rest
    split_ifs
    · exact ⟨he.payload, he.publishedAt, by rintro i ⟨⟩, he.createdAt⟩
    · exact he
  exact agrees_store
    (Store.serve_ofMemory_of_ok (Memory.run_settle published now rest owner m) fun h => by cases h)
    (Store.serve_ofTables (Tables.run_settle published now rest owner m)) rfl (hk _ hfit)

end Session

end DoubleEntry
