import DoubleEntry.Proofs.EncodedOutbox
import DoubleEntry.Proofs.KeyedEvents
import DoubleEntry.Proofs.OutboxClaims

/-!
# Events that are held

A worker holds an event that is not published and on which it has the claim.  It gets hold of one
only by a claim of its own (`Store.isHeld_of_claim`); whatever others do, it holds at most what it
held (`Store.isHeld_of_write`, `Store.isHeld_of_read`).  The end of an iteration that takes effect
leaves it none of the events that it is about (`Store.not_isHeld_settle`).

## Main definitions

* `Database.IsHeld`: a worker holds the event of an identifier.
* `Call.Spares`: a call is not a claim of the worker.
-/

namespace DoubleEntry

/-- The event of an identifier is not published, and the worker has the claim on it. -/
def Database.IsHeld (owner : String) (id : EventId) : Database → Prop
  | .memory m => ∃ e ∈ m.outbox, e.id = id ∧ Memory.isHeldBy owner e = true
  | .tables t => ∃ r ∈ t.outbox, r.id = id.toText ∧ Tables.isHeldBy owner r = true
  | .bare => False

instance (owner : String) (id : EventId) : (d : Database) → Decidable (d.IsHeld owner id)
  | .memory _ => inferInstanceAs (Decidable (∃ e ∈ _, _ ∧ _))
  | .tables _ => inferInstanceAs (Decidable (∃ r ∈ _, _ ∧ _))
  | .bare => inferInstanceAs (Decidable False)

/-- The call is not a claim of the worker. -/
def Call.Spares (owner : String) : Call → Prop
  | .claim _ worker _ _ => worker ≠ owner
  | _ => True

theorem Work.exists_of_run_call {σ α : Type} [Backend σ] {c : Call} {k : c.Answer → Work α}
    {s s' : σ} {a : α} (h : (Work.call c k).run s = (.ok a, s')) :
    ∃ b s₁, Backend.call c s = (.ok b, s₁) ∧ (k b).run s₁ = (.ok a, s') := by
  rw [Work.run] at h
  rcases hcall : Backend.call c s with ⟨e | b, s₁⟩
  · rw [hcall] at h
    cases h
  · rw [hcall] at h
    exact ⟨b, s₁, rfl, h⟩

section

variable {owner worker : String} {id : EventId} {limit : Nat} {now : Instant} {ttl : Int}
  {given : List OutboxEvent} {ids : List EventId}

/-- Some rows that were changed have a property only if there was one that gets it. -/
theorem exists_of_map_ite {α : Type} {l : List α} {c : α → Bool} {f : α → α} {P : α → Prop}
    (h : ∃ a ∈ l.map (fun a => if c a then f a else a), P a) :
    ∃ a ∈ l, c a = true ∧ P (f a) ∨ c a = false ∧ P a := by
  obtain ⟨b, hb, hP⟩ := h
  obtain ⟨a, ha, rfl⟩ := List.mem_map.1 hb
  refine ⟨a, ha, ?_⟩
  cases hc : c a with
  | true => exact .inl ⟨rfl, by rwa [hc, if_pos rfl] at hP⟩
  | false => exact .inr ⟨rfl, by rwa [hc, if_neg Bool.false_ne_true] at hP⟩

/-! ### In memory -/

namespace Memory

variable {m : Memory}

theorem isHeld_of_update {f : OutboxEvent → OutboxEvent}
    (hf : ∀ e, (f e).id = e.id ∧ (isHeldBy owner (f e) = true → isHeldBy owner e = true))
    (h : Database.IsHeld owner id (.memory (m.update ids f))) :
    Database.IsHeld owner id (.memory m) := by
  obtain ⟨e, he, ⟨-, hid, hheld⟩ | ⟨-, hid, hheld⟩⟩ := exists_of_map_ite h
  · exact ⟨e, he, (hf e).1.symm.trans hid, (hf e).2 hheld⟩
  · exact ⟨e, he, hid, hheld⟩

theorem isHeld_of_freed {f : OutboxEvent → OutboxEvent} (hf : ∀ e, isHeldBy owner (f e) = false)
    (h : Database.IsHeld owner id (.memory (m.update ids f))) :
    Database.IsHeld owner id (.memory m) := by
  obtain ⟨e, he, ⟨-, -, hheld⟩ | ⟨-, hid, hheld⟩⟩ := exists_of_map_ite h
  · rw [hf e] at hheld
    cases hheld
  · exact ⟨e, he, hid, hheld⟩

theorem not_isHeld_update {f : OutboxEvent → OutboxEvent}
    (hf : ∀ e, (f e).id = e.id ∧ isHeldBy owner (f e) = false) (hid : id ∈ ids) :
    ¬ Database.IsHeld owner id (.memory (m.update ids f)) := by
  intro h
  obtain ⟨e, -, ⟨-, -, hheld⟩ | ⟨hnot, hid', -⟩⟩ := exists_of_map_ite h
  · rw [(hf e).2] at hheld
    cases hheld
  · rw [hid', List.contains_iff_mem.2 hid] at hnot
    cases hnot

theorem isHeldBy_claimed (e : OutboxEvent) (h : worker ≠ owner) :
    isHeldBy owner (claimed worker now e) = false := by
  simp [isHeldBy, claimed, h]

theorem isHeldBy_unclaimed (e : OutboxEvent) : isHeldBy owner (unclaimed e) = false := by
  simp [isHeldBy, unclaimed]

theorem isHeldBy_released (e : OutboxEvent) :
    isHeldBy owner (if isHeldBy owner e then unclaimed e else e) = false := by
  split_ifs with h
  · exact isHeldBy_unclaimed e
  · exact eq_false_of_ne_true h

theorem isHeld_call {c : Call} (hc : c.Spares owner) (hid : id ∈ m.outbox.map (·.id))
    (h : Database.IsHeld owner id (.memory (m.call c).2)) :
    Database.IsHeld owner id (.memory m) := by
  cases c with
  | insert row =>
    obtain ⟨e, he, hid', hheld⟩ := h
    obtain hsame | ⟨e', rfl, hnew, hadds⟩ := m.outbox_insert row
    · exact ⟨e, hsame ▸ he, hid', hheld⟩
    · rw [hadds] at he
      obtain he | he := List.mem_append.1 he
      · exact ⟨e, he, hid', hheld⟩
      -- the event that is inserted has an identifier of its own
      · obtain rfl := List.mem_singleton.1 he
        rw [← hid'] at hid
        exact absurd hid hnew
  | claim limit worker now ttl =>
    simp only [call, claim] at h
    cases hbatch : m.batch limit now ttl with
    | error e => rwa [hbatch] at h
    | ok es =>
      rw [hbatch] at h
      exact isHeld_of_freed (fun e => isHeldBy_claimed e hc) h
  | markPublished ids now => exact isHeld_of_freed (f := publishedAt now) (fun _ => rfl) h
  | releaseClaims ids worker =>
    refine isHeld_of_update (fun e => ?_) h
    split_ifs
    · refine ⟨rfl, fun hheld => ?_⟩
      rw [isHeldBy_unclaimed] at hheld
      cases hheld
    · exact ⟨rfl, fun hheld => hheld⟩
  | _ => exact h

theorem isHeld_claim (h : (m.call (.claim limit owner now ttl)).1 = .ok given)
    (hheld : Database.IsHeld owner id (.memory (m.call (.claim limit owner now ttl)).2)) :
    Database.IsHeld owner id (.memory m) ∨ id ∈ given.map (·.id) := by
  obtain ⟨es, -, rfl, hcall⟩ := batch_of_call h
  rw [hcall] at hheld
  obtain ⟨e, he, ⟨hmem, hid, -⟩ | ⟨-, hid, hheld⟩⟩ := exists_of_map_ite hheld
  · rw [ids_claimed]
    have hid : e.id = id := hid
    exact .inr (hid ▸ List.contains_iff_mem.1 hmem)
  · exact .inl ⟨e, he, hid, hheld⟩

end Memory

/-! ### In tables -/

namespace Tables

variable {t : Tables}

theorem isHeld_of_update {f : EventRow → EventRow} {texts : List String}
    (hf : ∀ r, (f r).id = r.id ∧ (isHeldBy owner (f r) = true → isHeldBy owner r = true))
    (h : Database.IsHeld owner id (.tables (t.update texts f))) :
    Database.IsHeld owner id (.tables t) := by
  obtain ⟨r, hr, ⟨-, hid, hheld⟩ | ⟨-, hid, hheld⟩⟩ := exists_of_map_ite h
  · exact ⟨r, hr, (hf r).1.symm.trans hid, (hf r).2 hheld⟩
  · exact ⟨r, hr, hid, hheld⟩

theorem isHeld_of_freed {f : EventRow → EventRow} {texts : List String}
    (hf : ∀ r, isHeldBy owner (f r) = false)
    (h : Database.IsHeld owner id (.tables (t.update texts f))) :
    Database.IsHeld owner id (.tables t) := by
  obtain ⟨r, hr, ⟨-, -, hheld⟩ | ⟨-, hid, hheld⟩⟩ := exists_of_map_ite h
  · rw [hf r] at hheld
    cases hheld
  · exact ⟨r, hr, hid, hheld⟩

theorem not_isHeld_update {f : EventRow → EventRow}
    (hf : ∀ r, (f r).id = r.id ∧ isHeldBy owner (f r) = false) (hid : id ∈ ids) :
    ¬ Database.IsHeld owner id (.tables (t.update (ids.map Uuid.toText) f)) := by
  intro h
  obtain ⟨r, -, ⟨-, -, hheld⟩ | ⟨hnot, hid', -⟩⟩ := exists_of_map_ite h
  · rw [(hf r).2] at hheld
    cases hheld
  · rw [hid', List.contains_iff_mem.2 (List.mem_map_of_mem hid)] at hnot
    cases hnot

theorem isHeldBy_claimed (r : EventRow) (h : worker ≠ owner) :
    isHeldBy owner (claimed worker now r) = false := by
  simp [isHeldBy, claimed, h]

theorem isHeldBy_unclaimed (r : EventRow) : isHeldBy owner (unclaimed r) = false := by
  simp [isHeldBy, unclaimed]

theorem isHeldBy_released (r : EventRow) :
    isHeldBy owner (if isHeldBy owner r then unclaimed r else r) = false := by
  split_ifs with h
  · exact isHeldBy_unclaimed r
  · exact eq_false_of_ne_true h

theorem call_markPublished_snd (ids : List EventId) (now : Instant) (t : Tables) :
    (t.call (.markPublished ids now)).2 = t.update (ids.map Uuid.toText) (publishedAt now) := by
  show (updateEach (fun _ => true) (publishedAt now) ids t).2 = _
  rw [updateEach_snd (f := publishedAt now) (fun _ => rfl) fun _ => rfl]
  rfl

theorem call_releaseClaims_snd (ids : List EventId) (owner : String) (t : Tables) :
    (t.call (.releaseClaims ids owner)).2 = t.update (ids.map Uuid.toText) fun r =>
      if isHeldBy owner r then unclaimed r else r :=
  updateEach_snd (p := isHeldBy owner) (f := unclaimed) (fun _ => rfl) (fun _ => rfl) ids t

theorem isHeld_call {c : Call} (hc : c.Spares owner) (hid : id.toText ∈ t.outbox.map (·.id))
    (h : Database.IsHeld owner id (.tables (t.call c).2)) :
    Database.IsHeld owner id (.tables t) := by
  cases c with
  | insert row =>
    obtain ⟨r, hr, hid', hheld⟩ := h
    obtain hsame | ⟨e, rfl, hnew, hadds⟩ := t.outbox_insert row
    · exact ⟨r, hsame ▸ hr, hid', hheld⟩
    · rw [hadds] at hr
      obtain hr | hr := List.mem_append.1 hr
      · exact ⟨r, hr, hid', hheld⟩
      -- the row that is inserted has an identifier of its own
      · obtain rfl := List.mem_singleton.1 hr
        have htext : e.id.toText = id.toText := hid'
        rw [← htext] at hid
        exact absurd hid hnew
  | claim limit worker now ttl =>
    rw [call, claim] at h
    cases hstale : now.shift (-ttl) with
    | none => rwa [hstale] at h
    | some stale =>
      rw [hstale] at h
      dsimp only at h
      have hrows : ∃ texts, Database.IsHeld owner id
          (.tables (t.update texts (claimed worker now))) := by
        split at h <;> exact ⟨_, h⟩
      obtain ⟨texts, hrows⟩ := hrows
      exact isHeld_of_freed (fun r => isHeldBy_claimed r hc) hrows
  | markPublished ids now =>
    rw [call_markPublished_snd] at h
    exact isHeld_of_freed (f := publishedAt now) (fun _ => rfl) h
  | releaseClaims ids worker =>
    rw [call_releaseClaims_snd] at h
    refine isHeld_of_update (fun r => ?_) h
    split_ifs
    · refine ⟨rfl, fun hheld => ?_⟩
      rw [isHeldBy_unclaimed] at hheld
      cases hheld
    · exact ⟨rfl, fun hheld => hheld⟩
  | _ => exact h

theorem isHeld_claim (h : (t.claim limit owner now ttl).1 = .ok given)
    (hheld : Database.IsHeld owner id (.tables (t.claim limit owner now ttl).2)) :
    Database.IsHeld owner id (.tables t) ∨ id ∈ given.map (·.id) := by
  obtain ⟨stale, texts, -, -, hclaim, hgiven, -⟩ := exists_of_claim h
  rw [hclaim] at hheld
  obtain ⟨r, hr, ⟨hmem, hid, -⟩ | ⟨-, hid, hheld⟩⟩ := exists_of_map_ite hheld
  · obtain ⟨e, he, hread⟩ := hgiven r hr (List.contains_iff_mem.1 hmem)
    exact .inr (List.mem_map.2 ⟨e, he, id_of_read hread hid⟩)
  · exact .inl ⟨r, hr, hid, hheld⟩

end Tables

/-! ### In any data -/

namespace Database

variable {d : Database}

/-- **A call that is not a claim of the worker** gives it no claim on an event that is there. -/
theorem Keyed.isHeld_call (hd : d.Keyed ids) (hid : id ∈ ids) {c : Call} (hc : c.Spares owner)
    (h : (Backend.call c d).2.IsHeld owner id) : d.IsHeld owner id := by
  cases d with
  | memory m =>
    have hids : m.outbox.map (·.id) = ids := hd.events
    exact Memory.isHeld_call hc (hids ▸ hid) h
  | tables t =>
    have hids : t.outbox.map (·.id) = ids.map Uuid.toText := hd.events
    exact Tables.isHeld_call hc (hids ▸ List.mem_map_of_mem hid) h
  | bare => exact h

theorem Keyed.isHeld_run (hd : d.Keyed ids) (hid : id ∈ ids) {α : Type} {w : Work α}
    (hw : w.Makes (Call.Spares owner)) (h : (w.run d).2.IsHeld owner id) : d.IsHeld owner id := by
  have hrun := hw.run_snd (R := fun d' : Database => (∃ new, d'.Keyed (ids ++ new)) ∧
    (d'.IsHeld owner id → d.IsHeld owner id)) ?_ (s := d)
    ⟨⟨[], by rwa [List.append_nil]⟩, fun h => h⟩
  · exact hrun.2 h
  · rintro c hc d' ⟨⟨new, hd'⟩, hheld⟩
    obtain ⟨more, hmore⟩ := hd'.exists_call c
    exact ⟨⟨new ++ more, by rwa [← List.append_assoc]⟩,
      fun h => hheld (hd'.isHeld_call (List.mem_append_left new hid) hc h)⟩

theorem isHeld_claim (h : (d.call (.claim limit owner now ttl)).1 = .ok given)
    (hheld : (d.call (.claim limit owner now ttl)).2.IsHeld owner id) :
    d.IsHeld owner id ∨ id ∈ given.map (·.id) := by
  cases d with
  | memory m => exact Memory.isHeld_claim h hheld
  | tables t => exact Tables.isHeld_claim h hheld
  | bare => cases hheld

theorem Keyed.mem_of_claim (hd : d.Keyed ids)
    (h : (d.call (.claim limit owner now ttl)).1 = .ok given) (hid : id ∈ given.map (·.id)) :
    id ∈ ids := by
  obtain ⟨e, he, rfl⟩ := List.mem_map.1 hid
  cases d with
  | memory m =>
    have hids : m.outbox.map (·.id) = ids := hd.events
    obtain ⟨es, hbatch, rfl, -⟩ := Memory.batch_of_call h
    obtain ⟨e', he', rfl⟩ := List.mem_map.1 he
    have hmem : e'.id ∈ m.outbox.map (·.id) :=
      List.mem_map_of_mem ((Memory.batch_eq_ok hbatch).1 e' he').1
    exact hids ▸ hmem
  | tables t =>
    have hids : t.outbox.map (·.id) = ids.map Uuid.toText := hd.events
    obtain ⟨stale, texts, -, -, -, -, hgiven⟩ := Tables.exists_of_claim h
    obtain ⟨r, hr, -, hread⟩ := hgiven e he
    have hmem : r.id ∈ ids.map Uuid.toText := hids ▸ List.mem_map_of_mem hr
    obtain ⟨id, hid, htext⟩ := List.mem_map.1 hmem
    obtain rfl : e.id = id := Tables.id_of_read hread htext.symm
    exact hid
  | bare =>
    have hbare : bareCall (.claim limit owner now ttl) = .ok given := h
    simp only [bareCall] at hbare
    split at hbare <;> cases hbare

theorem not_isHeld_markPublished (hid : id ∈ ids) :
    ¬ (Backend.call (.markPublished ids now) d).2.IsHeld owner id := by
  cases d with
  | memory m => exact Memory.not_isHeld_update (fun e => ⟨rfl, rfl⟩) hid
  | tables t =>
    show ¬ IsHeld owner id (.tables (t.call (.markPublished ids now)).2)
    rw [Tables.call_markPublished_snd]
    exact Tables.not_isHeld_update (fun r => ⟨rfl, rfl⟩) hid
  | bare => exact not_false

theorem not_isHeld_releaseClaims (hid : id ∈ ids) :
    ¬ (Backend.call (.releaseClaims ids owner) d).2.IsHeld owner id := by
  cases d with
  | memory m =>
    refine Memory.not_isHeld_update (fun e => ⟨?_, Memory.isHeldBy_released e⟩) hid
    split_ifs <;> rfl
  | tables t =>
    show ¬ IsHeld owner id (.tables (t.call (.releaseClaims ids owner)).2)
    rw [Tables.call_releaseClaims_snd]
    refine Tables.not_isHeld_update (fun r => ⟨?_, Tables.isHeldBy_released r⟩) hid
    split_ifs <;> rfl
  | bare => exact not_false

/-- **The end of an iteration** leaves its worker none of the events that it is about. -/
theorem Keyed.not_isHeld_settle {d' : Database} {published rest : List EventId} (hd : d.Keyed ids)
    (hid : id ∈ ids)
    (h : (StoreRequest.settle published now rest owner).work.run d = (.ok (), d'))
    (hmem : id ∈ published ∨ id ∈ rest) : ¬ d'.IsHeld owner id := by
  rcases published with _ | ⟨p, ps⟩ <;> rcases rest with _ | ⟨r, rs⟩
  · obtain hmem | hmem := hmem <;> cases hmem
  · obtain ⟨n, d₁, hcall, hdone⟩ := Work.exists_of_run_call h
    cases hdone
    have hfree : ¬ (Backend.call (.releaseClaims (r :: rs) owner) d).2.IsHeld owner id :=
      not_isHeld_releaseClaims (hmem.resolve_left List.not_mem_nil)
    rwa [hcall] at hfree
  · obtain ⟨n, d₁, hcall, hdone⟩ := Work.exists_of_run_call h
    cases hdone
    have hfree : ¬ (Backend.call (.markPublished (p :: ps) now) d).2.IsHeld owner id :=
      not_isHeld_markPublished (hmem.resolve_right List.not_mem_nil)
    rwa [hcall] at hfree
  · obtain ⟨n, d₁, hcall, hrest⟩ := Work.exists_of_run_call h
    obtain ⟨n', d₂, hcall', hdone⟩ := Work.exists_of_run_call hrest
    cases hdone
    obtain ⟨new, hd₁⟩ := hd.exists_call (.markPublished (p :: ps) now)
    rw [hcall] at hd₁
    intro hheld
    have hheld' : (Backend.call (.releaseClaims (r :: rs) owner) d₁).2.IsHeld owner id := by
      rwa [hcall']
    obtain hmem | hmem := hmem
    -- what was published stays so while the claims on the rest are given up
    · have hbefore : d₁.IsHeld owner id := hd₁.isHeld_call (List.mem_append_left new hid)
        (c := .releaseClaims (r :: rs) owner) trivial hheld'
      have hfree : ¬ (Backend.call (.markPublished (p :: ps) now) d).2.IsHeld owner id :=
        not_isHeld_markPublished hmem
      rw [hcall] at hfree
      exact hfree hbefore
    · exact not_isHeld_releaseClaims hmem hheld'

end Database

namespace Store

variable {s : Store}

/-- **A unit of work that writes**, and makes no claim for the worker, gives it none. -/
theorem isHeld_of_write (hs : s.data.Keyed ids) (hid : id ∈ ids) {α : Type} {w : Work α}
    (hw : w.Makes (Call.Spares owner)) (h : (s.write w).2.data.IsHeld owner id) :
    s.data.IsHeld owner id := by
  by_cases hok : ∃ a, (s.write w).1 = .ok a
  · obtain ⟨a, ha⟩ := hok
    have hdata : (s.write w).2.data = (w.run s.data).2 := (conclude_eq_ok ha).2
    rw [hdata] at h
    exact hs.isHeld_run hid hw h
  · have hdata : (s.write w).2.data = s.data := data_conclude fun a ha => hok ⟨a, ha⟩
    rwa [hdata] at h

/-- **A unit of work that reads**, and makes no claim for the worker, gives it none. -/
theorem isHeld_of_read (hs : s.data.Keyed ids) (hid : id ∈ ids) {α : Type} {w : Work α}
    (hw : w.Makes (Call.Spares owner)) (h : (s.read w).2.data.IsHeld owner id) :
    s.data.IsHeld owner id := by
  rw [read, afterRead] at h
  split at h
  · rename_i t hdata hreads
    rw [view, if_pos hreads] at h
    exact hs.isHeld_run hid hw h
  · exact h

/-- **A worker gets hold of events by its own claims**: it holds after one what it held before, and
what it was given. -/
theorem isHeld_of_claim (h : (s.serve (.claim limit owner now ttl)).2.data.IsHeld owner id) :
    s.data.IsHeld owner id ∨
      ∃ given, (s.serve (.claim limit owner now ttl)).1 = .ok given ∧ id ∈ given.map (·.id) := by
  rw [serve_claim] at h ⊢
  by_cases hok : ∃ given, (s.conclude (s.data.call (.claim limit owner now ttl))).1 = .ok given
  · obtain ⟨given, hgiven⟩ := hok
    obtain ⟨hcall, hdata⟩ := conclude_eq_ok hgiven
    rw [hdata] at h
    exact (Database.isHeld_claim hcall h).imp_right fun hmem => ⟨given, hgiven, hmem⟩
  · rw [data_conclude fun given hgiven => hok ⟨given, hgiven⟩] at h
    exact .inl h

theorem mem_of_claim (hs : s.data.Keyed ids)
    (h : (s.serve (.claim limit owner now ttl)).1 = .ok given) (hid : id ∈ given.map (·.id)) :
    id ∈ ids := by
  rw [serve_claim] at h
  exact hs.mem_of_claim (conclude_eq_ok h).1 hid

/-- **The end of an iteration** that takes effect leaves its worker none of the events that it is
about. -/
theorem not_isHeld_settle {published rest : List EventId} (hs : s.data.Keyed ids) (hid : id ∈ ids)
    (h : (s.serve (.settle published now rest owner)).1 = .ok ())
    (hmem : id ∈ published ∨ id ∈ rest) :
    ¬ (s.serve (.settle published now rest owner)).2.data.IsHeld owner id := by
  obtain ⟨hok, hdata⟩ := conclude_eq_ok h
  have hdata' : (s.serve (.settle published now rest owner)).2.data =
      ((StoreRequest.settle published now rest owner).work.run s.data).2 := hdata
  rw [hdata']
  exact hs.not_isHeld_settle hid (Prod.ext hok rfl) hmem

end Store

end

end DoubleEntry
