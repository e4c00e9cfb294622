import DoubleEntry.Proofs.ReachedStores

/-!
# Identifiers of events

Each event of an outbox has an identifier of its own, and keeps it.  A unit of work may add events
with new identifiers; none is ever removed (`Database.Keyed.exists_run`).  So it is in every store
that can be reached (`Store.Reached.exists_keyed`).

## Main definitions

* `Database.Keyed`: the events of the outbox, each with an identifier of its own.
-/

namespace DoubleEntry

/-- The outbox has the events of these identifiers, in this order. -/
def Database.HasEvents (ids : List EventId) : Database → Prop
  | .memory m => m.outbox.map (·.id) = ids
  | .tables t => t.outbox.map (·.id) = ids.map Uuid.toText
  | .bare => ids = []

/-- The outbox has the events of these identifiers, and each has one of its own. -/
structure Database.Keyed (ids : List EventId) (d : Database) : Prop where
  events : d.HasEvents ids
  nodup : ids.Nodup

/-! ### What calls do -/

namespace Memory

variable {m : Memory}

theorem ids_update {f : OutboxEvent → OutboxEvent} (hf : ∀ e, (f e).id = e.id) (ids : List EventId)
    (m : Memory) : (m.update ids f).outbox.map (·.id) = m.outbox.map (·.id) := by
  have h (e : OutboxEvent) : (if ids.contains e.id then f e else e).id = e.id := by
    split_ifs
    · exact hf e
    · rfl
  simp only [update, List.map_map, Function.comp_def, h]

theorem outbox_insert (row : Row) (m : Memory) :
    (m.call (.insert row)).2.outbox = m.outbox ∨
      ∃ e, row = .event e ∧ e.id ∉ m.outbox.map (·.id) ∧
        (m.call (.insert row)).2.outbox = m.outbox ++ [e] := by
  cases h : m.insert row with
  | error e =>
    rw [call, h]
    exact .inl rfl
  | ok m' =>
    have hcall : (m.call (.insert row)).2 = m.add row := by
      rw [call, h, ← (insert_eq_ok h).1]
      rfl
    rw [hcall]
    cases row with
    | event e =>
      simp only [insert, insertEvent, conflict, Halt.refuse] at h
      split_ifs at h with hany
      exact .inr ⟨e, rfl, by simpa using hany, rfl⟩
    | _ => exact .inl rfl

theorem ids_call (c : Call) (m : Memory) :
    (m.call c).2.outbox.map (·.id) = m.outbox.map (·.id) ∨
      ∃ e, c = .insert (.event e) ∧ e.id ∉ m.outbox.map (·.id) ∧
        (m.call c).2.outbox = m.outbox ++ [e] := by
  cases c with
  | insert row =>
    obtain hsame | ⟨e, rfl, hnew, hadds⟩ := m.outbox_insert row
    · exact .inl (congrArg (List.map (·.id)) hsame)
    · exact .inr ⟨e, rfl, hnew, hadds⟩
  | claim limit owner now ttl =>
    simp only [call, claim]
    cases m.batch limit now ttl with
    | error e => exact .inl rfl
    | ok es =>
      exact .inl (ids_update (f := claimed owner now) (fun _ => rfl) (es.map OutboxEvent.id) m)
  | markPublished ids now => exact .inl (ids_update (f := publishedAt now) (fun _ => rfl) ids m)
  | releaseClaims ids owner =>
    refine .inl (ids_update (fun e => ?_) ids m)
    split_ifs <;> rfl
  | _ => exact .inl rfl

end Memory

namespace Tables

variable {t : Tables}

/-- Rows are the same, told apart from the claims on them, only if their identifiers are. -/
theorem ids_eq_of_bare {t t' : Tables} (h : t'.bare = t.bare) :
    t'.outbox.map (·.id) = t.outbox.map (·.id) := by
  have houtbox : t'.outbox.map EventRow.bare = t.outbox.map EventRow.bare :=
    congrArg Tables.outbox h
  have hids (t : Tables) : (t.outbox.map EventRow.bare).map (·.id) = t.outbox.map (·.id) :=
    List.map_map
  rw [← hids t', houtbox, hids t]

theorem outbox_insertJournal (j : JournalEntry) (t : Tables) :
    (t.insertJournal j).2.outbox = t.outbox := by
  obtain ⟨e, he⟩ | ⟨-, -, rows, hrows, -⟩ := t.insertJournal_cases j
  · rw [he]
  · rw [hrows]

theorem outbox_insert (row : Row) (t : Tables) :
    (t.call (.insert row)).2.outbox = t.outbox ∨
      ∃ e, row = .event e ∧ e.id.toText ∉ t.outbox.map (·.id) ∧
        (t.call (.insert row)).2.outbox = t.outbox ++ [.of e] := by
  cases row with
  | event e =>
    simp only [call, insert, insertEvent]
    split_ifs with hany
    · exact .inl rfl
    · refine .inr ⟨e, rfl, ?_, rfl⟩
      intro hmem
      obtain ⟨r, hr, hid⟩ := List.mem_map.1 hmem
      exact hany (List.any_eq_true.2 ⟨r, hr, decide_eq_true hid⟩)
  | journal j => exact .inl (t.outbox_insertJournal j)
  | _ =>
    simp only [call, insert, insertPayment, insertStep, insertRecord]
    split_ifs <;> exact .inl rfl

theorem ids_call (c : Call) (t : Tables) :
    (t.call c).2.outbox.map (·.id) = t.outbox.map (·.id) ∨
      ∃ e, c = .insert (.event e) ∧ e.id.toText ∉ t.outbox.map (·.id) ∧
        (t.call c).2.outbox = t.outbox ++ [.of e] := by
  cases hc : c.isInsert with
  | false => exact .inl (ids_eq_of_bare (bare_call hc t))
  | true =>
    cases c with
    | insert row =>
      obtain hsame | ⟨e, rfl, hnew, hadds⟩ := t.outbox_insert row
      · exact .inl (congrArg (List.map (·.id)) hsame)
      · exact .inr ⟨e, rfl, hnew, hadds⟩
    | _ => cases hc

theorem exists_of_mapM {α β ε : Type} {f : α → Except ε β} {as : List α} {bs : List β}
    (h : as.mapM f = .ok bs) {a : α} (ha : a ∈ as) : ∃ b ∈ bs, f a = .ok b := by
  induction as generalizing bs with
  | nil => cases ha
  | cons a' as ih =>
    rw [List.mapM_cons] at h
    obtain ⟨b, hb, h⟩ := exists_of_bind_eq_ok h
    obtain ⟨bs', hbs, h⟩ := exists_of_bind_eq_ok h
    cases h
    obtain rfl | ha := List.mem_cons.1 ha
    · exact ⟨b, List.mem_cons_self, hb⟩
    · obtain ⟨b', hb', hab'⟩ := ih hbs ha
      exact ⟨b', List.mem_cons_of_mem b hb', hab'⟩

theorem id_of_read {r : EventRow} {e : OutboxEvent} (h : r.read = .ok e) {id : EventId}
    (hid : r.id = id.toText) : e.id = id := by
  rw [EventRow.read, hid, Column.uuid_toText] at h
  obtain ⟨_, ⟨⟩, h⟩ := exists_of_bind_eq_ok h
  obtain ⟨_, -, h⟩ := exists_of_bind_eq_ok h
  obtain ⟨_, -, h⟩ := exists_of_bind_eq_ok h
  obtain ⟨_, -, h⟩ := exists_of_bind_eq_ok h
  obtain ⟨_, -, h⟩ := exists_of_bind_eq_ok h
  obtain ⟨_, -, h⟩ := exists_of_bind_eq_ok h
  cases h
  rfl

/-- **A claim that is answered** was made on free rows, and gives their events. -/
theorem exists_of_claim {limit : Nat} {owner : String} {now : Instant} {ttl : Int}
    {given : List OutboxEvent} (h : (t.claim limit owner now ttl).1 = .ok given) :
    ∃ stale ids, now.shift (-ttl) = some stale ∧
      (∀ i ∈ ids, ∃ r ∈ t.outbox, r.id = i ∧ isFree stale.microText r = true) ∧
      (t.claim limit owner now ttl).2 = t.update ids (claimed owner now) ∧
      (∀ r ∈ t.outbox, r.id ∈ ids → ∃ e ∈ given, (claimed owner now r).read = .ok e) ∧
      ∀ e ∈ given, ∃ r ∈ t.outbox, r.id ∈ ids ∧ (claimed owner now r).read = .ok e := by
  cases hstale : now.shift (-ttl) with
  | none => simp only [claim, hstale] at h; cases h
  | some stale =>
    simp only [claim, hstale] at h ⊢
    obtain ⟨ids, hids⟩ : ∃ ids, ids =
      (((t.outbox.filter (isFree stale.microText)).mergeSort olderFirst).take limit).map
        EventRow.id := ⟨_, rfl⟩
    rw [← hids] at h ⊢
    obtain ⟨rows, hrows⟩ : ∃ rows, rows = ((t.update ids (claimed owner now)).outbox.filter
      fun r => ids.contains r.id).mergeSort fun a b => textLe a.id b.id := ⟨_, rfl⟩
    have hmem (r : EventRow) : r ∈ rows ↔
        ∃ r' ∈ t.outbox, r'.id ∈ ids ∧ claimed owner now r' = r := by
      rw [hrows, (List.mergeSort_perm _ _).mem_iff, List.mem_filter, update, List.mem_map]
      constructor
      · rintro ⟨⟨r', hr', rfl⟩, hid⟩
        by_cases hid' : ids.contains r'.id
        · exact ⟨r', hr', List.contains_iff_mem.1 hid', (if_pos hid').symm⟩
        · rw [if_neg hid'] at hid
          exact absurd hid hid'
      · rintro ⟨r', hr', hid, rfl⟩
        have hid' : ids.contains r'.id = true := List.contains_iff_mem.2 hid
        exact ⟨⟨r', hr', if_pos hid'⟩, hid'⟩
    rw [← hrows] at h ⊢
    cases hread : rows.mapM EventRow.read with
    | error e => rw [hread] at h; cases h
    | ok events =>
      rw [hread] at h
      have hgiven (e : OutboxEvent) : e ∈ given ↔ e ∈ events :=
        Except.ok.inj h ▸ (List.mergeSort_perm _ _).mem_iff
      refine ⟨stale, ids, rfl, fun i hi => ?_, rfl, fun r hr hid => ?_, fun e he => ?_⟩
      · rw [hids] at hi
        obtain ⟨r, hr, rfl⟩ := List.mem_map.1 hi
        have hr := (List.mergeSort_perm _ _).mem_iff.1 (List.mem_of_mem_take hr)
        exact ⟨r, (List.mem_filter.1 hr).1, rfl, (List.mem_filter.1 hr).2⟩
      · obtain ⟨e, he, hr⟩ := exists_of_mapM hread ((hmem _).2 ⟨r, hr, hid, rfl⟩)
        exact ⟨e, (hgiven e).2 he, hr⟩
      · obtain ⟨r', hr', hr⟩ := ((Layout.mem_of_mapM hread).2 e).1 ((hgiven e).1 he)
        obtain ⟨r, hmem', hid, rfl⟩ := (hmem r').1 hr'
        exact ⟨r, hmem', hid, hr⟩

end Tables

namespace Database

variable {ids : List EventId} {d : Database}

theorem Keyed.concat {d' : Database} (h : d.Keyed ids) {id : EventId} (hid : id ∉ ids)
    (hd : d'.HasEvents (ids ++ [id])) : d'.Keyed (ids ++ [id]) :=
  ⟨hd, List.nodup_append.2 ⟨h.nodup, List.nodup_singleton id, by
    rintro a ha b hb rfl
    exact hid (List.mem_singleton.1 hb ▸ ha)⟩⟩

/-- **What a call does to the identifiers**: it may add one. -/
theorem Keyed.exists_call (h : d.Keyed ids) (c : Call) :
    ∃ new, (Backend.call c d).2.Keyed (ids ++ new) := by
  have same {d' : Database} (hd : d'.HasEvents ids) : ∃ new, d'.Keyed (ids ++ new) :=
    ⟨[], by rw [List.append_nil]; exact ⟨hd, h.nodup⟩⟩
  cases d with
  | memory m =>
    have hids : m.outbox.map (·.id) = ids := h.events
    obtain heq | ⟨e, -, hnew, hadd⟩ := m.ids_call c
    · exact same (heq.trans hids)
    · refine ⟨[e.id], h.concat (hids ▸ hnew) ?_⟩
      show (m.call c).2.outbox.map (·.id) = ids ++ [e.id]
      rw [hadd, List.map_append, hids]
      rfl
  | tables t =>
    have hids : t.outbox.map (·.id) = ids.map Uuid.toText := h.events
    obtain heq | ⟨e, -, hnew, hadd⟩ := t.ids_call c
    · exact same (heq.trans hids)
    · refine ⟨[e.id], h.concat (fun hmem => hnew (hids ▸ List.mem_map_of_mem hmem)) ?_⟩
      show (t.call c).2.outbox.map (·.id) = (ids ++ [e.id]).map Uuid.toText
      rw [hadd, List.map_append, hids, List.map_append]
      rfl
  | bare => exact same h.events

/-- **What a unit of work does to the identifiers**: it may add some. -/
theorem Keyed.exists_run (h : d.Keyed ids) {α : Type} (w : Work α) :
    ∃ new, (w.run d).2.Keyed (ids ++ new) := by
  refine w.makes_true.run_snd (R := fun d : Database => ∃ new, d.Keyed (ids ++ new)) ?_ ⟨[], ?_⟩
  · rintro c - d ⟨new, h⟩
    obtain ⟨more, h'⟩ := h.exists_call c
    exact ⟨new ++ more, by rwa [← List.append_assoc]⟩
  · rwa [List.append_nil]

end Database

namespace Store

variable {s : Store} {ids : List EventId} {α : Type}

theorem exists_keyed_write (h : s.data.Keyed ids) (w : Work α) :
    ∃ new, (s.write w).2.data.Keyed (ids ++ new) := by
  have same : ∃ new, s.data.Keyed (ids ++ new) := ⟨[], by rwa [List.append_nil]⟩
  have hrun := h.exists_run w
  rw [write]
  rcases hw : w.run s.data with ⟨e | a, d⟩ <;> rw [hw] at hrun
  · exact same
  · rw [conclude]
    split_ifs
    · exact same
    · exact hrun

theorem exists_keyed_read (h : s.data.Keyed ids) (w : Work α) :
    ∃ new, (s.read w).2.data.Keyed (ids ++ new) := by
  rw [read, afterRead]
  split
  · rename_i t hdata hreads
    obtain ⟨new, hrun⟩ := h.exists_run w
    exact ⟨new, by rwa [view, if_pos hreads]⟩
  · exact ⟨[], by rwa [List.append_nil]⟩

theorem serve_claim (s : Store) (limit : Nat) (owner : String) (now : Instant) (ttl : Int) :
    s.serve (.claim limit owner now ttl) =
      s.conclude (s.data.call (.claim limit owner now ttl)) := by
  show s.conclude ((Work.single (.claim limit owner now ttl)).run s.data) = _
  rw [Work.run_single]
  rfl

theorem conclude_eq_ok {x : Outcome α × Database} {a : α} (h : (s.conclude x).1 = .ok a) :
    x.1 = .ok a ∧ (s.conclude x).2.data = x.2 := by
  obtain ⟨e | b, d⟩ := x
  · cases h
  · rw [conclude] at h ⊢
    split_ifs at h ⊢
    · cases h
    · exact ⟨h, rfl⟩

theorem data_conclude {x : Outcome α × Database} (h : ∀ a, (s.conclude x).1 ≠ .ok a) :
    (s.conclude x).2.data = s.data := by
  obtain ⟨e | b, d⟩ := x
  · rfl
  · rw [conclude] at h ⊢
    split_ifs at h ⊢
    · rfl
    · exact absurd rfl (h b)

theorem data_failNext (s : Store) : s.failNext.data = s.data := by
  rw [failNext]
  split <;> rfl

/-- **In a store that can be reached** each event has an identifier of its own. -/
theorem Reached.exists_keyed (h : s.Reached) : ∃ ids, s.data.Keyed ids := by
  induction h with
  | opened h =>
    unfold open? at h
    split_ifs at h <;> cases h
    · exact ⟨[], rfl, List.nodup_nil⟩
    · exact ⟨[], rfl, List.nodup_nil⟩
  | write _ w ih =>
    obtain ⟨ids, h⟩ := ih
    obtain ⟨new, h'⟩ := exists_keyed_write h w
    exact ⟨_, h'⟩
  | read _ w ih =>
    obtain ⟨ids, h⟩ := ih
    obtain ⟨new, h'⟩ := exists_keyed_read h w
    exact ⟨_, h'⟩
  | @failNext s _ ih => rwa [data_failNext]

end Store

end DoubleEntry
