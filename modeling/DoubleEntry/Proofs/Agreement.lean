import DoubleEntry.Proofs.EncodedInserts
import DoubleEntry.Proofs.EncodedOutbox
import DoubleEntry.Proofs.Session

/-!
# Programs over a store in memory and over its tables

A program agrees (`Session.Agrees`) if it is carried out alike over a store in memory and over the
tables of that store: it ends with the same result, the same has happened outside, and the stores it
leaves are again a store in memory and its tables.

What makes programs agree is kept from request to request (`Session.Fit`).  The store holds values
that rows can hold; all identifiers, those in the store, those that the program was given and those
to come, are distinct; the events in the outbox, the readings that the program was given and those
to come are in the order of time; and each payment has a record under its key.

## Main definitions

* `Store.ofTables`: a store in tables.
* `Session.Fit`, `Session.Agrees`: see above.

## Main results

* `Session.agrees_store`, `Session.agrees_of_world`: requests that go to the store, and others.
-/

namespace DoubleEntry

namespace Store

/-- A store in tables, which reads see as well. -/
def ofTables (t : Tables) : Store := ⟨.tables t, true, false⟩

theorem run_tables {α : Type} (w : Work α) (t : Tables) :
    w.run (Database.tables t) = ((w.run t).1, .tables (w.run t).2) := by
  induction w generalizing t with
  | done a => rfl
  | call c k ih =>
    have hc : Backend.call c (Database.tables t) =
        ((Backend.call c t).1, Database.tables (Backend.call c t).2) := rfl
    simp only [Work.run, hc]
    rcases Backend.call c t with ⟨_ | a, t'⟩
    · rfl
    · exact ih a t'

/-- **Units of work in tables** take effect if they succeed. -/
theorem serve_ofTables {r : StoreRequest} {t t' : Tables} {a : r.Value}
    (h : r.work.run t = (.ok a, t')) : (ofTables t).serve r = (.ok a, ofTables t') := by
  have hrun : r.work.run (Database.tables t) = (.ok a, .tables t') := by rw [run_tables, h]
  unfold serve
  split
  · simp [write, ofTables, hrun, conclude]
  · simp [read, view, ofTables, hrun, afterRead]

/-- **Units of work in memory** take effect if they succeed. -/
theorem serve_ofMemory_of_ok {r : StoreRequest} {m m' : Memory} {a : r.Value}
    (h : r.work.run m = (.ok a, m')) (hread : r.writes = false → m' = m) :
    (ofMemory m false).serve r = (.ok a, ofMemory m' false) := by
  rw [serve_ofMemory, h]
  split
  · rfl
  · rename_i hw
    rw [hread (by simpa using hw)]

end Store

namespace Session

/-- What is kept while a program is carried out that was given some identifiers and readings. -/
structure Fit (clock : List Instant) (m : Memory) (ids : List Uuid) (times : List Instant)
    (sc : Scene) : Prop where
  stored : m.IsStored
  distinct : (m.ids ++ ids ++ sc.ids).Nodup
  inOrder : (m.outbox.map (·.createdAt) ++ times ++ sc.clock).Pairwise (· < ·)
  given : times ++ sc.clock ⊆ clock
  keys : ∀ p ∈ m.payments, ∃ r ∈ m.records, r.key = p.idempotencyKey

/-- A program is carried out alike over a store in memory and over its tables. -/
def Agrees {α : Type} (o : Outside) (clock : List Instant) (p : Program α) (m : Memory)
    (sc : Scene) : Prop :=
  ∃ a m' sc', p.run (world o) (.ofMemory m false, sc) = (a, .ofMemory m' false, sc') ∧
    p.run (world o) (.ofTables m.tables, sc) = (a, .ofTables m'.tables, sc') ∧
    Fit clock m' [] [] sc'

variable {α β : Type} {o : Outside} {clock times : List Instant} {m : Memory} {ids : List Uuid}
  {sc : Scene}

/-! ### What is kept -/

namespace Fit

/-- At its end, a program gives back what it was given. -/
theorem forget (h : Fit clock m ids times sc) : Fit clock m [] [] sc where
  stored := h.stored
  distinct := by
    have hids : m.ids.Sublist (m.ids ++ ids) := List.sublist_append_left _ _
    simpa using h.distinct.sublist (hids.append_right sc.ids)
  inOrder := by
    have htimes := List.sublist_append_left (m.outbox.map (·.createdAt)) times
    simpa using h.inOrder.sublist (htimes.append_right sc.clock)
  given _ ht := h.given (List.mem_append_right _ ht)
  keys := h.keys

theorem journalIds (h : Fit clock m ids times sc) : (m.journals.map (·.id)).Nodup :=
  h.distinct.of_append_left.of_append_left.sublist m.journalIds_sublist

theorem eventIds (h : Fit clock m ids times sc) : (m.outbox.map (·.id)).Nodup :=
  h.distinct.of_append_left.of_append_left.sublist m.eventIds_sublist

/-- What happens outside changes nothing that is kept. -/
theorem note (h : Fit clock m ids times sc) (r : Request) (a : Option r.Answer) :
    Fit clock m ids times (sc.note r a) :=
  ⟨h.stored, h.distinct, h.inOrder, h.given, h.keys⟩

variable {log : List Exchange} {ts : List Instant} {us : List Uuid}

theorem read {t : Instant} (h : Fit clock m ids times ⟨log, t :: ts, us⟩) :
    Fit clock m ids (times ++ [t]) ⟨⟨.now, some t⟩ :: log, ts, us⟩ :=
  ⟨h.stored, h.distinct, by simpa using h.inOrder, by simpa using h.given, h.keys⟩

theorem draw {u : Uuid} (h : Fit clock m ids times ⟨log, ts, u :: us⟩) :
    Fit clock m (ids ++ [u]) times ⟨⟨.freshId, some u⟩ :: log, ts, us⟩ :=
  ⟨h.stored, by simpa using h.distinct, h.inOrder, h.given, h.keys⟩

end Fit

/-! ### Following a program -/

theorem agrees_done (h : Fit clock m ids times sc) (a : α) : Agrees o clock (.done a) m sc :=
  ⟨some a, m, sc, rfl, rfl, h.forget⟩

theorem agrees_crash (h : Fit clock m ids times sc) :
    Agrees o clock (.crash : Program α) m sc :=
  ⟨none, m, sc, rfl, rfl, h.forget⟩

theorem agrees_store {q : StoreRequest} {k : Except StoreError q.Value → Program α} {a b : q.Value}
    {m' : Memory} (hmemory : (Store.ofMemory m false).serve q = (.ok a, .ofMemory m' false))
    (htables : (Store.ofTables m.tables).serve q = (.ok b, .ofTables m'.tables))
    (hab : k (.ok b) = k (.ok a)) (h : Agrees o clock (k (.ok a)) m' sc) :
    Agrees o clock (.ask (.store q) k) m sc := by
  obtain ⟨c, m'', sc', hm, ht, hfit⟩ := h
  have hworld : world o (.store q) (.ofMemory m false, sc) =
      (some (.ok a), .ofMemory m' false, sc) := by rw [world, hmemory]; rfl
  have hworld' : world o (.store q) (.ofTables m.tables, sc) =
      (some (.ok b), .ofTables m'.tables, sc) := by rw [world, htables]; rfl
  refine ⟨c, m'', sc', (Program.run_ask hworld).trans hm, (Program.run_ask hworld').trans ?_, hfit⟩
  exact (congrArg (fun p => Program.run (world o) p _) hab).trans ht

theorem agrees_of_world {r : Request} {k : r.Answer → Program α} {a : Option r.Answer} {sc' : Scene}
    (hworld : ∀ s, world o r (s, sc) = (a, s, sc')) (hfit : Fit clock m ids times sc')
    (h : ∀ b, a = some b → Agrees o clock (k b) m sc') : Agrees o clock (.ask r k) m sc := by
  cases a with
  | none =>
    refine ⟨none, m, sc', ?_, ?_, hfit.forget⟩
    · rw [Program.run, hworld]
    · rw [Program.run, hworld]
  | some b =>
    obtain ⟨c, m', sc'', hm, ht, hfit⟩ := h b rfl
    exact ⟨c, m', sc'', (Program.run_ask (hworld _)).trans hm, (Program.run_ask (hworld _)).trans ht, hfit⟩

theorem agrees_now {k : Instant → Program α} (h : Fit clock m ids times sc)
    (hk : ∀ t sc', Fit clock m ids (times ++ [t]) sc' → Agrees o clock (k t) m sc') :
    Agrees o clock (.ask .now k) m sc := by
  obtain ⟨log, _ | ⟨t, ts⟩, us⟩ := sc
  · exact agrees_of_world (fun _ => rfl) (h.note .now none) fun _ hb => by cases hb
  · refine agrees_of_world (fun _ => rfl) h.read fun b hb => ?_
    cases hb
    exact hk t _ h.read

theorem agrees_freshId {k : Uuid → Program α} (h : Fit clock m ids times sc)
    (hk : ∀ u sc', Fit clock m (ids ++ [u]) times sc' → Agrees o clock (k u) m sc') :
    Agrees o clock (.ask .freshId k) m sc := by
  obtain ⟨log, ts, _ | ⟨u, us⟩⟩ := sc
  · exact agrees_of_world (fun _ => rfl) (h.note .freshId none) fun _ hb => by cases hb
  · refine agrees_of_world (fun _ => rfl) h.draw fun b hb => ?_
    cases hb
    exact hk u _ h.draw

theorem agrees_accounts {c : AccountsCall} {k : Except GatewayError c.Answer → Program α}
    (h : Fit clock m ids times sc)
    (hk : ∀ a sc', Fit clock m ids times sc' → Agrees o clock (k a) m sc') :
    Agrees o clock (.ask (.accounts c) k) m sc :=
  agrees_of_world (fun _ => rfl) (h.note _ _) fun a _ => hk a _ (h.note _ _)

theorem agrees_audit {r : AuditRecord} {k : Except AuditError Unit → Program α}
    (h : Fit clock m ids times sc)
    (hk : ∀ a sc', Fit clock m ids times sc' → Agrees o clock (k a) m sc') :
    Agrees o clock (.ask (.audit r) k) m sc :=
  agrees_of_world (fun _ => rfl) (h.note _ _) fun a _ => hk a _ (h.note _ _)

theorem agrees_publish {topic key : String} {payload : Json}
    {k : Except PublishError Unit → Program α} (h : Fit clock m ids times sc)
    (hk : ∀ a sc', Fit clock m ids times sc' → Agrees o clock (k a) m sc') :
    Agrees o clock (.ask (.publish topic key payload) k) m sc :=
  agrees_of_world (fun _ => rfl) (h.note _ _) fun a _ => hk a _ (h.note _ _)

theorem agrees_ofHalt {ε : Type} {r : Except (Halt ε) β} {refused : ε → Program α}
    {k : β → Program α} (h : Fit clock m ids times sc)
    (hr : ∀ e, Agrees o clock (refused e) m sc) (hk : ∀ b, r = .ok b → Agrees o clock (k b) m sc) :
    Agrees o clock (.ofHalt r refused k) m sc := by
  rcases r with (e | _) | b
  · exact hr e
  · exact agrees_crash h
  · exact hk b rfl

theorem Agrees.map {p : Program α} (h : Agrees o clock p m sc) (f : α → β) :
    Agrees o clock (p.map f) m sc := by
  obtain ⟨a, m', sc', hm, ht, hfit⟩ := h
  refine ⟨a.map f, m', sc', ?_, ?_, hfit⟩
  · rw [Program.run_map, hm]
  · rw [Program.run_map, ht]

end Session

end DoubleEntry
