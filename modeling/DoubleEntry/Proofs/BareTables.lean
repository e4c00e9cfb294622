import DoubleEntry.Proofs.KeptRows

/-!
# Units of work on the store in tables

A unit of work that inserts rows and succeeds has added all of them, each to its table, a journal
with its lines; one of the outbox changes only who works on an event and whether it was published;
one that reads changes nothing (`Tables.bare_of_run`).

## Main definitions

* `Work.Makes`: all calls that a unit of work can make satisfy a predicate.
* `EventRow.bare`, `Tables.bare`: the row of an event, and all of them, as they were inserted.
* `Tables.add`: the tables with a row added, whatever is there already.

## Main results

* `Work.Makes.run_snd`: what every call keeps is kept by the unit of work.
* `Tables.bare_of_insert`: a row that was accepted was added, and has a key of its own.
* `Tables.bare_of_run`: what a unit of work does to the rows.
-/

namespace DoubleEntry

/-- The row of an event as it was inserted: nobody works on it, and it was not published. -/
def EventRow.bare (r : EventRow) : EventRow :=
  { r with
    published := 0
    publishedAt := none
    processing := 0
    processingOwner := none
    processingAt := none }

/-- The call inserts a row. -/
def Call.isInsert : Call → Bool
  | insert _ => true
  | _ => false

namespace Work

variable {α σ : Type} [Backend σ] {P : Call → Prop}

/-- All calls that a unit of work can make satisfy `P`. -/
inductive Makes (P : Call → Prop) : Work α → Prop
  | done (a : α) : Makes P (.done a)
  | call {c : Call} {k : c.Answer → Work α} (hc : P c) (hk : ∀ a, Makes P (k a)) :
    Makes P (.call c k)

theorem Makes.single {c : Call} (hc : P c) : (Work.single c).Makes P := .call hc .done

theorem run_single (c : Call) (s : σ) : (Work.single c).run s = Backend.call c s := by
  rw [single, run]
  rcases Backend.call c s with ⟨_ | a, s'⟩ <;> rfl

theorem Makes.run_snd {w : Work α} (hw : w.Makes P) {R : σ → Prop}
    (hR : ∀ c, P c → ∀ s, R s → R (Backend.call c s).2) {s : σ} (hs : R s) : R (w.run s).2 := by
  induction hw generalizing s with
  | done a => exact hs
  | @call c k hc _ ih =>
    have h := hR c hc s hs
    rw [run]
    rcases hcall : Backend.call c s with ⟨e | a, s'⟩ <;> rw [hcall] at h
    · exact h
    · exact ih a h

theorem Makes.settle {published rest : List EventId} {now : Instant} {owner : String}
    (hp : P (.markPublished published now)) (hr : P (.releaseClaims rest owner)) :
    (StoreRequest.settle published now rest owner).work.Makes P := by
  rcases published with _ | ⟨p, ps⟩ <;> rcases rest with _ | ⟨r, rs⟩
  · exact .done ()
  · exact .call hr fun _ => .done ()
  · exact .call hp fun _ => .done ()
  · exact .call hp fun _ => .call hr fun _ => .done ()

end Work

namespace Tables

/-- The tables with every event as it was inserted. -/
def bare (t : Tables) : Tables := { t with outbox := t.outbox.map EventRow.bare }

/-- The tables with a row added, a journal with its lines. -/
def add (t : Tables) : Row → Tables
  | .payment p => { t with payments := t.payments ++ [.of p] }
  | .step s => { t with steps := t.steps ++ [.of s] }
  | .journal j => { t with journals := t.journals ++ [.of j], lines := t.lines ++ j.lineRows }
  | .event e => { t with outbox := t.outbox ++ [.of e] }
  | .record r => { t with records := t.records ++ [.of r] }

variable {t t' : Tables} {m : Memory} {row : Row}

theorem bare_add (h : t.bare = t'.bare) (row : Row) : (t.add row).bare = (t'.add row).bare := by
  simp only [bare, Tables.mk.injEq] at h
  obtain ⟨hp, hs, hj, hl, ho, hr⟩ := h
  cases row <;> simp [add, bare, hp, hs, hj, hl, ho, hr]

theorem bare_tables (m : Memory) : m.tables.bare = m.bare.tables := by
  simp only [bare, Memory.tables, Memory.bare, List.map_map]
  rfl

theorem tables_add (m : Memory) (row : Row) : (m.add row).tables = m.tables.add row := by
  cases row <;> simp [Memory.add, Memory.tables, add]

theorem bare_add_of (h : t.bare = m.bare.tables) (row : Row) :
    (t.add row).bare = (m.add row).bare.tables := by
  rw [← bare_tables, tables_add]
  exact bare_add (h.trans (bare_tables m).symm) row

/-! ### Inserting -/

theorem any_row {α ρ : Type} {row : α → ρ} {id : ρ → String} {key : α → Uuid}
    (hrow : ∀ a, id (row a) = (key a).toText) (as : List α) (a : α) :
    ((as.map row).any fun r => id r = id (row a)) = as.any fun b => key b = key a := by
  simp [List.any_map, Function.comp_def, hrow]

theorem bare_of_insertJournal (ht : t.bare = m.bare.tables) {j : JournalEntry}
    (h : t.insertJournal j = (.ok (), t')) :
    t'.bare = (m.add (.journal j)).bare.tables ∧ (m.Sound → (m.add (.journal j)).Sound) := by
  have hj : t.journals = m.journals.map .of := congrArg Tables.journals ht
  obtain ⟨e, he⟩ | ⟨-, hfresh, rows, hrows, -, hall⟩ := t.insertJournal_cases j
  · cases he.symm.trans h
  · rw [h] at hrows hall
    obtain rfl := hall rfl
    obtain rfl : t' = t.add (.journal j) := hrows
    refine ⟨bare_add_of ht (.journal j), fun ⟨h1, h2, h3, h4, h5⟩ => ⟨h1, h2, ?_, h4, h5⟩⟩
    refine Memory.nodup_concat h3 fun hany => ?_
    obtain ⟨k, hk, hid⟩ := List.any_eq_true.1 hany
    refine hfresh (.of k) (hj ▸ List.mem_map_of_mem hk) ?_
    rw [JournalRow.id_of, of_decide_eq_true hid]

theorem bare_of_insertEvent (ht : t.bare = m.bare.tables) {e : OutboxEvent}
    (h : t.insertEvent (.of e) = .ok t') :
    t'.bare = (m.add (.event e)).bare.tables ∧ (m.Sound → (m.add (.event e)).Sound) := by
  have ho : t.outbox.map EventRow.bare = (m.outbox.map OutboxEvent.bare).map .of :=
    congrArg Tables.outbox ht
  unfold insertEvent at h
  split_ifs at h with hid
  · cases h
  · cases h
    refine ⟨bare_add_of ht (.event e), fun ⟨h1, h2, h3, h4, h5⟩ => ⟨h1, h2, h3, ?_, h5⟩⟩
    refine Memory.nodup_concat h4 fun hany => hid ?_
    obtain ⟨f, hf, hfe⟩ := List.any_eq_true.1 hany
    have hmem : EventRow.of f.bare ∈ t.outbox.map EventRow.bare :=
      ho ▸ List.mem_map_of_mem (List.mem_map_of_mem hf)
    obtain ⟨r, hr, hbare⟩ := List.mem_map.1 hmem
    have hid' : r.id = f.bare.id.toText :=
      (congrArg EventRow.id hbare).trans (EventRow.id_of f.bare)
    have hfe' : f.bare.id = e.id := of_decide_eq_true hfe
    refine List.any_eq_true.2 ⟨r, hr, decide_eq_true ?_⟩
    rw [hid', hfe', EventRow.id_of]

/-- **A row that was accepted** was added, and has a key of its own. -/
theorem bare_of_insert (ht : t.bare = m.bare.tables) (h : t.insert row = (.ok (), t')) :
    t'.bare = (m.add row).bare.tables ∧ (m.Sound → (m.add row).Sound) := by
  have hp : t.payments = m.payments.map .of := congrArg Tables.payments ht
  have hr : t.records = m.records.map .of := congrArg Tables.records ht
  cases row with
  | payment p =>
    have h := eq_ok_of_after h
    unfold insertPayment at h
    split_ifs at h with hkey hid
    · cases h
    · cases h
    · cases h
      refine ⟨bare_add_of ht (.payment p), fun ⟨h1, h2, h3, h4, h5⟩ => ⟨?_, ?_, h3, h4, h5⟩⟩
      · rw [hp, any_row PaymentRow.id_of] at hid
        exact Memory.nodup_concat h1 hid
      · rw [hp, List.any_map] at hkey
        exact Memory.nodup_concat h2 hkey
  | step s =>
    have h := eq_ok_of_after h
    unfold insertStep at h
    split_ifs at h
    · cases h
      exact ⟨bare_add_of ht (.step s), fun ⟨h1, h2, h3, h4, h5⟩ => ⟨h1, h2, h3, h4, h5⟩⟩
    · cases h
  | journal j => exact bare_of_insertJournal ht h
  | event e => exact bare_of_insertEvent ht (eq_ok_of_after h)
  | record r =>
    have h := eq_ok_of_after h
    unfold insertRecord at h
    split_ifs at h with hkey
    · cases h
    · cases h
      refine ⟨bare_add_of ht (.record r), fun ⟨h1, h2, h3, h4, h5⟩ => ⟨h1, h2, h3, h4, ?_⟩⟩
      rw [hr, List.any_map] at hkey
      exact Memory.nodup_concat h5 hkey

theorem bare_of_insertAll {rows : List Row} {u : Unit} (ht : t.bare = m.bare.tables)
    (h : (Work.insertAll rows).run t = (.ok u, t')) :
    t'.bare = (m.addAll rows).bare.tables ∧ (m.Sound → (m.addAll rows).Sound) := by
  induction rows generalizing t m with
  | nil => cases h; exact ⟨ht, id⟩
  | cons row rows ih =>
    have hcall : Backend.call (Call.insert row) t = t.insert row := rfl
    rw [Work.insertAll, Work.run, hcall] at h
    rcases hrow : t.insert row with ⟨e | _, t₁⟩ <;> rw [hrow] at h
    · cases h
    · obtain ⟨hone, hsound⟩ := bare_of_insert ht hrow
      obtain ⟨hrest, hsound'⟩ := ih hone h
      exact ⟨hrest, hsound' ∘ hsound⟩

/-! ### The outbox -/

theorem bare_update {f : EventRow → EventRow} (hf : ∀ r, (f r).bare = r.bare) (ids : List String)
    (t : Tables) : (t.update ids f).bare = t.bare := by
  have h (r : EventRow) : (if ids.contains r.id then f r else r).bare = r.bare := by
    split_ifs
    · exact hf r
    · rfl
  simp only [bare, update, List.map_map, Function.comp_def, h]

theorem bare_updateEach {p : EventRow → Bool} {f : EventRow → EventRow}
    (hf : ∀ r, (f r).bare = r.bare) (ids : List EventId) (t : Tables) :
    (updateEach p f ids t).2.bare = t.bare := by
  induction ids generalizing t with
  | nil => rfl
  | cons id ids ih =>
    have h (r : EventRow) : (if r.id = id.toText && p r then f r else r).bare = r.bare := by
      split_ifs
      · exact hf r
      · rfl
    refine (ih _).trans ?_
    simp only [bare, List.map_map, Function.comp_def, h]

/-- A call that inserts nothing leaves all rows as they are, but for the claims on events. -/
theorem bare_call {c : Call} (hc : c.isInsert = false) (t : Tables) :
    (t.call c).2.bare = t.bare := by
  cases c with
  | insert row => cases hc
  | claim limit owner now ttl =>
    rw [call, claim]
    split
    · rfl
    · have hbare := bare_update (f := claimed owner now) (fun _ => rfl)
      dsimp only
      split <;> exact hbare _ t
  | markPublished ids now => exact bare_updateEach (f := publishedAt now) (fun _ => rfl) ids t
  | releaseClaims ids owner => exact bare_updateEach (f := unclaimed) (fun _ => rfl) ids t
  | _ => rfl

/-- **What a unit of work does to the rows.**  Told apart from the claims on events, it adds the
rows that it inserts. -/
theorem bare_of_run {q : StoreRequest} {a : q.Value} (ht : t.bare = m.bare.tables)
    (h : q.work.run t = (.ok a, t')) :
    t'.bare = (m.addAll q.rows).bare.tables ∧ (m.Sound → (m.addAll q.rows).Sound) := by
  have unchanged (hq : q.work.Makes fun c => c.isInsert = false) : t'.bare = t.bare := by
    have hrun := hq.run_snd (R := fun s => s.bare = t.bare)
      (fun c hc s hs => (bare_call hc s).trans hs) rfl
    rwa [h] at hrun
  cases q with
  | post rows => exact bare_of_insertAll ht h
  | record key => exact ⟨(unchanged (.single rfl)).trans ht, id⟩
  | activity l => exact ⟨(unchanged (.single rfl)).trans ht, id⟩
  | claim limit owner now ttl => exact ⟨(unchanged (.single rfl)).trans ht, id⟩
  | payment id =>
    refine ⟨(unchanged (.call rfl fun found => ?_)).trans ht, fun hm => hm⟩
    cases found with
    | none => exact .done _
    | some p => exact .call rfl fun _ => .done _
  | settle published now rest owner =>
    refine ⟨(unchanged ?_).trans ht, fun hm => hm⟩
    exact .settle rfl rfl

end Tables

end DoubleEntry
