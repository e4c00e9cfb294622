import DoubleEntry.Proofs.Encoding
import Mathlib.Data.List.Perm.Basic

/-!
# The outbox in tables

The events of an outbox are inserted in the order of their times, each at a time of its own.  Then
the events that are claimed in tables, read in the order of their identifiers and sorted by their
times afterwards, are those that are claimed in memory, and the rows are changed alike.

## Main definitions

* `Memory.InOrder`: the events of the outbox are in the order of their times.

## Main results

* `Tables.claim_tables`: a claim, if the time before which claims are stale is in the calendar.
* `Tables.run_settle`: the end of an iteration.
-/

namespace DoubleEntry

/-- The events of the outbox are in the order of their times, and no two are of one time. -/
def Memory.InOrder (m : Memory) : Prop := (m.outbox.map (·.createdAt)).Pairwise (· < ·)

/-! ### Changed rows -/

theorem Memory.tables_update {m : Memory} {ids : List EventId} {f : OutboxEvent → OutboxEvent}
    {g : EventRow → EventRow} (h : ∀ e, EventRow.of (f e) = g (.of e)) :
    (m.update ids f).tables = m.tables.update (ids.map Uuid.toText) g := by
  have houtbox : (m.outbox.map fun e => if ids.contains e.id then f e else e).map EventRow.of =
      (m.outbox.map EventRow.of).map fun r =>
        if (ids.map Uuid.toText).contains r.id then g r else r := by
    rw [List.map_map, List.map_map]
    refine List.map_congr_left fun e _ => ?_
    have hmem : (ids.map Uuid.toText).contains (EventRow.of e).id = ids.contains e.id := by
      rw [Bool.eq_iff_iff, List.contains_iff_mem, List.contains_iff_mem, EventRow.id_of,
        List.mem_map_of_injective Uuid.toText_injective]
    simp only [Function.comp_apply, hmem]
    split_ifs
    · exact h e
    · rfl
  rw [update, tables, Tables.update, houtbox]
  rfl

namespace Tables

theorem updateEach_snd {p : EventRow → Bool} {f : EventRow → EventRow}
    (hid : ∀ r, (f r).id = r.id) (hf : ∀ r, f (f r) = f r) (ids : List EventId) (t : Tables) :
    (updateEach p f ids t).2 =
      t.update (ids.map Uuid.toText) fun r => if p r then f r else r := by
  induction ids generalizing t with
  | nil => simp [updateEach, update]
  | cons id ids ih =>
    have houtbox : (t.outbox.map fun r => if r.id = id.toText && p r then f r else r).map
        (fun r => if (ids.map Uuid.toText).contains r.id then (if p r then f r else r) else r) =
        t.outbox.map fun r => if ((id :: ids).map Uuid.toText).contains r.id then
          (if p r then f r else r) else r := by
      rw [List.map_map]
      refine List.map_congr_left fun r _ => ?_
      by_cases hp : p r = true
      · by_cases hr : r.id = id.toText
        -- a row that was changed already stays as it is
        · simp [hp, hr, hid, hf]
        · simp [hp, hr]
      · simp [hp]
    rw [updateEach]
    simp only [ih, update, houtbox]

/-! ### The end of an iteration -/

theorem isHeldBy_of (owner : String) (e : OutboxEvent) :
    isHeldBy owner (.of e) = Memory.isHeldBy owner e := by
  have hflag : (Column.ofFlag e.published == 0) = !e.published := by cases e.published <;> rfl
  rw [isHeldBy, Memory.isHeldBy]
  exact congrArg (· && _) hflag

theorem call_markPublished (ids : List EventId) (now : Instant) (m : Memory) :
    ∃ n, Backend.call (Call.markPublished ids now) m.tables =
      (.ok n, (m.update ids (Memory.publishedAt now)).tables) := by
  have h : (updateEach (fun _ => true) (publishedAt now) ids m.tables).2 =
      (m.update ids (Memory.publishedAt now)).tables := by
    rw [updateEach_snd (f := publishedAt now) (fun _ => rfl) fun _ => rfl]
    exact (Memory.tables_update fun _ => rfl).symm
  exact ⟨_, Prod.ext rfl h⟩

theorem call_releaseClaims (ids : List EventId) (owner : String) (m : Memory) :
    ∃ n, Backend.call (Call.releaseClaims ids owner) m.tables = (.ok n, Memory.tables
      (m.update ids fun e => if Memory.isHeldBy owner e then Memory.unclaimed e else e)) := by
  have h : (updateEach (isHeldBy owner) unclaimed ids m.tables).2 = Memory.tables
      (m.update ids fun e => if Memory.isHeldBy owner e then Memory.unclaimed e else e) := by
    rw [updateEach_snd (f := unclaimed) (fun _ => rfl) fun _ => rfl]
    refine (Memory.tables_update fun e => ?_).symm
    rw [isHeldBy_of]
    split_ifs <;> rfl
  exact ⟨_, Prod.ext rfl h⟩

/-- **The end of an iteration** changes the rows as it changes the events. -/
theorem run_settle (published : List EventId) (now : Instant) (rest : List EventId)
    (owner : String) (m : Memory) :
    (StoreRequest.settle published now rest owner).work.run m.tables =
      (.ok (), (Memory.settled published now rest owner m).tables) := by
  -- an update of no events is left out of the unit of work
  rcases published with _ | ⟨p, ps⟩ <;> rcases rest with _ | ⟨r, rs⟩
  · rw [Memory.settled, Memory.update_nil, Memory.update_nil]
    rfl
  · obtain ⟨n, hn⟩ := call_releaseClaims (r :: rs) owner m
    rw [Memory.settled, Memory.update_nil]
    exact Work.run_call hn
  · obtain ⟨n, hn⟩ := call_markPublished (p :: ps) now m
    rw [Memory.settled, Memory.update_nil]
    exact Work.run_call hn
  · obtain ⟨n, hn⟩ := call_markPublished (p :: ps) now m
    obtain ⟨n', hn'⟩ := call_releaseClaims (r :: rs) owner
      (m.update (p :: ps) (Memory.publishedAt now))
    exact (Work.run_call hn).trans (Work.run_call hn')

/-! ### Claims -/

theorem isClaimable_eq_isFree {e : OutboxEvent} (he : e.IsStored) {now stale : Instant} {ttl : Int}
    (hstale : now.shift (-ttl) = some stale) (hmicro : stale.nanos % 1000 = 0)
    (hyear : stale.year ≤ 9999) :
    e.isClaimable now ttl = some (isFree stale.microText (.of e)) := by
  cases hp : e.published with
  | true => simp [OutboxEvent.isClaimable, isFree, EventRow.of, hp, Column.ofFlag]
  | false =>
    cases hc : e.processing with
    | false => simp [OutboxEvent.isClaimable, isFree, EventRow.of, hp, hc, Column.ofFlag]
    | true =>
      cases ht : e.processingAt with
      | none => simp [OutboxEvent.isClaimable, isFree, EventRow.of, hp, hc, ht, Column.ofFlag]
      | some t =>
        have hfree : isFree stale.microText (.of e) = decide (t < stale) := by
          rw [Bool.eq_iff_iff, decide_eq_true_eq,
            ← Instant.microText_lt_iff_of_year_le (he.processingAt t ht) hmicro hyear]
          simp only [isFree, EventRow.of, hp, hc, ht, Column.ofFlag, Option.map_some,
            Option.all_some, Bool.and_eq_true, Bool.or_eq_true, decide_eq_true_eq]
          simp
        simp [OutboxEvent.isClaimable, hp, hc, ht, hstale, hfree]

theorem claimables_eq {now : Instant} {ttl : Int} {p : OutboxEvent → Bool} {es : List OutboxEvent}
    (h : ∀ e ∈ es, e.isClaimable now ttl = some (p e)) :
    Memory.claimables now ttl es = .ok (es.filter p) := by
  induction es with
  | nil => rfl
  | cons e es ih =>
    rw [Memory.claimables, h e List.mem_cons_self, ih fun f hf => h f (List.mem_cons_of_mem e hf)]
    cases hp : p e <;> simp [Halt.orCrash, hp, bind, Except.bind, pure, Except.pure]

/-- Where keys are distinct, those of some of the elements tell these apart from the others. -/
theorem filter_contains_eq {α κ : Type} [DecidableEq κ] {key : α → κ} {as bs : List α}
    (h : (as.map key).Nodup) (hs : bs.Sublist as) :
    as.filter (fun a => (bs.map key).contains (key a)) = bs := by
  induction hs with
  | slnil => rfl
  | @cons bs as a hs ih =>
    rw [List.map_cons, List.nodup_cons] at h
    have hnot : (bs.map key).contains (key a) = false := by
      rw [Bool.eq_false_iff, Ne, List.contains_iff_mem]
      exact fun hmem => h.1 ((hs.map key).subset hmem)
    rw [List.filter_cons, hnot]
    exact ih h.2
  | @cons_cons bs as a hs ih =>
    rw [List.map_cons, List.nodup_cons] at h
    have hrest : as.filter (fun b => ((a :: bs).map key).contains (key b)) = bs := by
      refine Eq.trans (List.filter_congr fun b hb => ?_) (ih h.2)
      have hne : key b ≠ key a := fun hba => h.1 (hba ▸ List.mem_map_of_mem hb)
      simp [hne]
    rw [List.filter_cons_of_pos (by simp), hrest]

theorem olderFirst_of {e f : OutboxEvent} (he : e.IsStored) (hf : f.IsStored)
    (h : e.createdAt < f.createdAt) : olderFirst (.of e) (.of f) = true := by
  have hlt : (EventRow.of e).createdAt < (EventRow.of f).createdAt :=
    (Instant.microText_lt_iff he.createdAt hf.createdAt).2 h
  simp only [olderFirst, Bool.or_eq_true, decide_eq_true_eq]
  exact .inl hlt

/-- Sorting events that are in the order of their times changes nothing, whatever the order was
that they came in. -/
theorem mergeSort_createdAt {es fs : List OutboxEvent} (hp : fs.Perm es)
    (h : es.Pairwise fun e f => e.createdAt < f.createdAt) :
    fs.mergeSort (fun e f => decide (e.createdAt ≤ f.createdAt)) = es := by
  have hsorted : (fs.mergeSort fun e f => decide (e.createdAt ≤ f.createdAt)).Pairwise
      fun e f => e.createdAt ≤ f.createdAt := by
    refine (List.pairwise_mergeSort (fun a b c hab hbc => ?_) (fun a b => ?_) fs).imp
      of_decide_eq_true
    · exact decide_eq_true (le_trans (of_decide_eq_true hab) (of_decide_eq_true hbc))
    · simpa using le_total a.createdAt b.createdAt
  have hperm := (List.mergeSort_perm fs fun e f => decide (e.createdAt ≤ f.createdAt)).trans hp
  have hinj : ∀ a ∈ es, ∀ b ∈ es, a.createdAt = b.createdAt → a = b :=
    List.inj_on_of_nodup_map ((List.pairwise_map.2 h).imp ne_of_lt)
  refine hperm.eq_of_pairwise (fun a b ha hb hab hba => ?_) hsorted (h.imp le_of_lt)
  exact hinj a (hperm.subset ha) b hb (le_antisymm hab hba)

section

variable {m : Memory} {now stale : Instant} {ttl : Int} (limit : Nat) (owner : String)

theorem batch_eq (hm : m.IsStored) (horder : m.InOrder) (hstale : now.shift (-ttl) = some stale)
    (hmicro : stale.nanos % 1000 = 0) (hyear : stale.year ≤ 9999) :
    m.batch limit now ttl =
      .ok ((m.outbox.filter fun e => isFree stale.microText (.of e)).take limit) := by
  have hpair := (List.pairwise_map.1 horder).filter fun e => isFree stale.microText (.of e)
  rw [Memory.batch, claimables_eq fun e he =>
    isClaimable_eq_isFree (hm.outbox e he) hstale hmicro hyear]
  exact congrArg (fun es => Except.ok (List.take limit es)) (mergeSort_createdAt (.refl _) hpair)

theorem mergeSort_olderFirst (hm : m.IsStored) (horder : m.InOrder) (text : String) :
    (m.tables.outbox.filter (isFree text)).mergeSort olderFirst =
      (m.outbox.filter fun e => isFree text (.of e)).map EventRow.of := by
  have hpair := (List.pairwise_map.1 horder).filter fun e => isFree text (.of e)
  have hsorted : ((m.outbox.filter fun e => isFree text (.of e)).map EventRow.of).Pairwise
      fun a b => olderFirst a b = true := by
    refine List.pairwise_map.2 (hpair.imp_of_mem fun he hf hlt => ?_)
    exact olderFirst_of (hm.outbox _ (List.mem_of_mem_filter he))
      (hm.outbox _ (List.mem_of_mem_filter hf)) hlt
  rw [Memory.tables, List.filter_map]
  exact List.mergeSort_of_pairwise hsorted

theorem filter_update {batch : List OutboxEvent} {f : OutboxEvent → OutboxEvent}
    (hids : (m.outbox.map (·.id)).Nodup) (hbatch : batch.Sublist m.outbox)
    (hf : ∀ e, (f e).id = e.id) :
    (m.update (batch.map (·.id)) f).outbox.filter (fun e => (batch.map (·.id)).contains e.id) =
      batch.map f := by
  have hid : ∀ e : OutboxEvent,
      (if (batch.map (·.id)).contains e.id then f e else e).id = e.id := by
    intro e
    split_ifs
    · exact hf e
    · rfl
  have hfound : m.outbox.filter (fun e => (batch.map (·.id)).contains e.id) = batch :=
    filter_contains_eq hids hbatch
  rw [Memory.update, List.filter_map]
  simp only [Function.comp_def, hid, hfound]
  refine List.map_congr_left fun e he => if_pos ?_
  exact List.contains_iff_mem.2 (List.mem_map_of_mem he)

theorem filter_rows (hids : (m.outbox.map (·.id)).Nodup) {batch : List OutboxEvent}
    {f : OutboxEvent → OutboxEvent} (hbatch : batch.Sublist m.outbox) (hf : ∀ e, (f e).id = e.id) :
    ((m.update (batch.map (·.id)) f).tables.outbox.filter fun r =>
        ((batch.map (·.id)).map Uuid.toText).contains r.id).mergeSort
          (fun a b => textLe a.id b.id) =
      ((batch.map f).mergeSort fun e e' => decide (e.id.bits ≤ e'.id.bits)).map EventRow.of := by
  have hmem : ∀ e : OutboxEvent, ((batch.map (·.id)).map Uuid.toText).contains (EventRow.of e).id =
      (batch.map (·.id)).contains e.id := by
    intro e
    rw [Bool.eq_iff_iff, List.contains_iff_mem, List.contains_iff_mem, EventRow.id_of,
      List.mem_map_of_injective Uuid.toText_injective]
  rw [Memory.tables, List.filter_map]
  simp only [Function.comp_def, hmem]
  rw [filter_update hids hbatch hf]
  exact (List.map_mergeSort fun e _ e' _ => (textLe_toText e.id e'.id).symm).symm

/-- **A claim** is answered alike and changes the rows as it changes the events. -/
theorem claim_tables (hm : m.IsStored) (horder : m.InOrder) (hids : (m.outbox.map (·.id)).Nodup)
    (hnow : now.IsWhole) (hstale : now.shift (-ttl) = some stale)
    (hmicro : stale.nanos % 1000 = 0) (hyear : stale.year ≤ 9999) :
    ∃ batch : List OutboxEvent, batch.Sublist m.outbox ∧ m.batch limit now ttl = .ok batch ∧
      m.tables.claim limit owner now ttl = (.ok (batch.map (Memory.claimed owner now)),
        (m.update (batch.map (·.id)) (Memory.claimed owner now)).tables) := by
  obtain ⟨batch, hbatch⟩ : ∃ batch, batch =
      (m.outbox.filter fun e => isFree stale.microText (.of e)).take limit := ⟨_, rfl⟩
  have hsub : batch.Sublist m.outbox := by
    rw [hbatch]
    exact (List.take_sublist limit _).trans List.filter_sublist
  refine ⟨batch, hsub, ?_, ?_⟩
  · rw [hbatch]
    exact batch_eq limit hm horder hstale hmicro hyear
  have hrows : ((((m.tables.outbox.filter (isFree stale.microText)).mergeSort olderFirst).take
      limit).map EventRow.id) = (batch.map (·.id)).map Uuid.toText := by
    rw [mergeSort_olderFirst hm horder, ← List.map_take, ← hbatch, List.map_map, List.map_map]
    rfl
  have hupdate : m.tables.update ((batch.map (·.id)).map Uuid.toText) (claimed owner now) =
      (m.update (batch.map (·.id)) (Memory.claimed owner now)).tables :=
    (Memory.tables_update fun _ => rfl).symm
  have hread : ∀ e ∈ (batch.map (Memory.claimed owner now)).mergeSort
      (fun e e' => decide (e.id.bits ≤ e'.id.bits)), EventRow.read (.of e) = .ok e := by
    intro e he
    obtain ⟨e₀, he₀, rfl⟩ := List.mem_map.1 (List.mem_mergeSort.1 he)
    have hstored := hm.outbox e₀ (hsub.subset he₀)
    refine EventRow.read_of ⟨hstored.payload, hstored.publishedAt, ?_, hstored.createdAt⟩
    rintro i ⟨⟩
    exact hnow
  have hpair : (batch.map (Memory.claimed owner now)).Pairwise
      fun e f => e.createdAt < f.createdAt :=
    List.pairwise_map.2 ((List.pairwise_map.1 horder).sublist hsub)
  rw [claim, hstale]
  simp only [hrows, hupdate]
  rw [filter_rows (f := Memory.claimed owner now) hids hsub fun _ => rfl, mapM_map hread,
    List.map_id']
  simp only [mergeSort_createdAt (List.mergeSort_perm _ _) hpair]

end

end Tables

end DoubleEntry
