import DoubleEntry.Proofs.Committed
import DoubleEntry.Proofs.RelayTrace

/-!
# Rows of the outbox

A request to a store in memory does one of four things to an event of the outbox: it leaves it as it
is, claims it, marks it as published, or gives up a claim on it (`OutboxEvent.Step`).  Other than
that it only adds events (`Pool.outbox_move`).

## Main definitions

* `Exchange.marked?`: what was marked as published.
* `OutboxEvent.Step`: what an exchange does to an event.
-/

namespace DoubleEntry

/-- The identifiers of the events that a settlement marked as published. -/
def Exchange.marked? : Exchange → Option (List EventId)
  | ⟨.store (.settle published _ _ _), some (.ok _)⟩ => some published
  | _ => none

namespace OutboxEvent

theorem id_eq_of_bare {e e' : OutboxEvent} (h : e'.bare = e.bare) : e'.id = e.id := by
  have := congrArg OutboxEvent.id h
  exact this

theorem message_eq_of_bare {e e' : OutboxEvent} (h : e'.bare = e.bare) :
    e'.message = e.message := by
  have := congrArg message h
  exact this

/-- What an exchange does to an event. -/
inductive Step (e : OutboxEvent) : Exchange → OutboxEvent → Prop
  | kept {x : Exchange} (unclaimed : ∀ now events, x.claim? = some (now, events) →
      e.id ∉ events.map (·.id)) (unmarked : ∀ ids, x.marked? = some ids → e.id ∉ ids) :
    Step e x e
  | claimed {limit : Nat} {owner : String} {now : Instant} {ttl : Int} {events : List OutboxEvent}
    (free : e.isClaimable now ttl = some true) :
    Step e ⟨.store (.claim limit owner now ttl), some (.ok events)⟩ (Memory.claimed owner now e)
  | published {published : List EventId} {now : Instant} {rest : List EventId} {owner : String}
    {u : Unit} (marked : e.id ∈ published) :
    Step e ⟨.store (.settle published now rest owner), some (.ok u)⟩ (Memory.publishedAt now e)
  | released {published : List EventId} {now : Instant} {rest : List EventId} {owner : String}
    {u : Unit} (unmarked : e.id ∉ published) (released : e.id ∈ rest)
    (held : Memory.isHeldBy owner e = true) :
    Step e ⟨.store (.settle published now rest owner), some (.ok u)⟩ (Memory.unclaimed e)

theorem isClaimable_eq_some_true {e : OutboxEvent} {now : Instant} {ttl : Int}
    (h : e.isClaimable now ttl = some true) : e.published = false ∧
      ∀ t, e.processing = true → e.processingAt = some t →
        ∃ stale, now.shift (-ttl) = some stale ∧ t < stale := by
  have hp : e.published = false := by
    by_contra hp
    rw [isClaimable, if_pos (by simpa using hp)] at h
    cases h
  refine ⟨hp, fun t h1 h2 => ?_⟩
  rw [isClaimable, if_neg (by simp [hp]), h1, h2] at h
  obtain ⟨stale, hs, h⟩ := Option.bind_eq_some_iff.1 h
  exact ⟨stale, hs, by simpa using h⟩

theorem Step.bare_eq {e e' : OutboxEvent} {x : Exchange} (h : Step e x e') : e'.bare = e.bare := by
  cases h <;> rfl

theorem Step.id_eq {e e' : OutboxEvent} {x : Exchange} (h : Step e x e') : e'.id = e.id := by
  cases h <;> rfl

theorem Step.published_of {e e' : OutboxEvent} {x : Exchange} (h : Step e x e')
    (hp : e.published = true) : e'.published = true := by
  cases h with
  | kept _ _ => exact hp
  | claimed _ => exact hp
  | published _ => rfl
  | released _ _ _ => exact hp

theorem Step.mem_marked {e e' : OutboxEvent} {x : Exchange} (h : Step e x e')
    (hn : e.published = false) (hp : e'.published = true) : ∃ published now rest owner u,
      x = ⟨.store (.settle published now rest owner), some (.ok u)⟩ ∧ e.id ∈ published := by
  cases h with
  | kept _ _ => simp [hn] at hp
  | claimed _ => simp [Memory.claimed, hn] at hp
  | published marked => exact ⟨_, _, _, _, _, rfl, marked⟩
  | released _ _ _ => simp [Memory.unclaimed, hn] at hp

end OutboxEvent

namespace Memory

/-! ### Batches -/

theorem claimables_eq_ok {now : Instant} {ttl : Int} {es free : List OutboxEvent}
    (h : claimables now ttl es = .ok free) :
    free.Sublist es ∧ ∀ e ∈ free, e.isClaimable now ttl = some true := by
  induction es generalizing free with
  | nil => cases h; exact ⟨.slnil, List.forall_mem_nil _⟩
  | cons e es ih =>
    simp only [claimables] at h
    cases he : e.isClaimable now ttl with
    | none => rw [he] at h; cases h
    | some b =>
      cases hr : claimables now ttl es with
      | error err => rw [he, hr] at h; cases h
      | ok rest =>
        rw [he, hr] at h
        obtain ⟨hsub, hfree⟩ := ih hr
        cases b with
        | false => cases h; exact ⟨.cons e hsub, hfree⟩
        | true => cases h; exact ⟨.cons_cons e hsub, List.forall_mem_cons.2 ⟨he, hfree⟩⟩

/-- **A batch** is made of free events, each once. -/
theorem batch_eq_ok {m : Memory} {limit : Nat} {now : Instant} {ttl : Int} {es : List OutboxEvent}
    (h : m.batch limit now ttl = .ok es) :
    (∀ e ∈ es, e ∈ m.outbox ∧ e.isClaimable now ttl = some true) ∧
      (m.Sound → (es.map (·.id)).Nodup) := by
  simp only [batch] at h
  cases hf : claimables now ttl m.outbox with
  | error err => rw [hf] at h; cases h
  | ok free =>
    rw [hf] at h
    cases h
    obtain ⟨hsub, hfree⟩ := claimables_eq_ok hf
    have hperm := List.mergeSort_perm free fun a b => decide (a.createdAt ≤ b.createdAt)
    refine ⟨fun e he => ?_, fun hm => ?_⟩
    · have he := hperm.mem_iff.1 (List.mem_of_mem_take he)
      exact ⟨hsub.subset he, hfree e he⟩
    · have hids := (hm.eventIds.sublist (hsub.map (·.id)))
      have htake := (List.take_sublist limit
        (free.mergeSort fun a b => decide (a.createdAt ≤ b.createdAt))).map OutboxEvent.id
      exact ((hperm.map OutboxEvent.id).nodup_iff.2 hids).sublist htake

theorem Sound.event_eq {m : Memory} (hm : m.Sound) {e e' : OutboxEvent} (he : e ∈ m.outbox)
    (he' : e' ∈ m.outbox) (hid : e.id = e'.id) : e = e' :=
  List.inj_on_of_nodup_map hm.eventIds he he' hid

end Memory

namespace Pool

variable {ι α : Type} [DecidableEq ι]

open OutboxEvent

theorem outbox_kept {r : Request} {a : Option r.Answer} {m : Memory} (f : Bool)
    (hc : (Exchange.mk r a).claim? = none) (hk : (Exchange.mk r a).marked? = none)
    (hi : (Exchange.mk r a).commit? = none) :
    ∃ g : OutboxEvent → OutboxEvent, (Store.ofMemory m f).memory.outbox = m.outbox.map g ++
        ((Exchange.commit? ⟨r, a⟩).getD []).filterMap Row.event? ∧
      ∀ e ∈ m.outbox, Step e ⟨r, a⟩ (g e) := by
  refine ⟨id, by simp [hi], fun e _ => .kept (fun _ _ h => ?_) fun _ h => ?_⟩
  · rw [hc] at h
    cases h
  · rw [hk] at h
    cases h

theorem outbox_claim {m : Memory} (hm : m.Sound) {limit : Nat} {owner : String} {now : Instant}
    {ttl : Int} {es : List OutboxEvent} (h : m.batch limit now ttl = .ok es) :
    ∃ g : OutboxEvent → OutboxEvent,
      (m.update (es.map OutboxEvent.id) (Memory.claimed owner now)).outbox = m.outbox.map g ∧
      ∀ e ∈ m.outbox, Step e ⟨.store (.claim limit owner now ttl),
        some (.ok (es.map (Memory.claimed owner now)))⟩ (g e) := by
  refine ⟨_, rfl, fun e he => ?_⟩
  have hids : (es.map (Memory.claimed owner now)).map OutboxEvent.id = es.map OutboxEvent.id := by
    simp [Memory.claimed]
  show Step e _ (if (es.map OutboxEvent.id).contains e.id = true then _ else _)
  split_ifs with hmem
  · obtain ⟨e', he', hid⟩ := List.mem_map.1 (List.contains_iff_mem.1 hmem)
    obtain ⟨hout, hfree⟩ := (Memory.batch_eq_ok h).1 e' he'
    obtain rfl := hm.event_eq hout he hid
    exact .claimed hfree
  · refine .kept ?_ (by rintro _ ⟨⟩)
    rintro _ _ ⟨⟩
    rw [hids]
    exact fun h => hmem (List.contains_iff_mem.2 h)

theorem outbox_settle {m : Memory} (published : List EventId) (now : Instant) (rest : List EventId)
    (owner : String) (u : Unit) : ∃ g : OutboxEvent → OutboxEvent,
      (Memory.settled published now rest owner m).outbox = m.outbox.map g ∧
      ∀ e ∈ m.outbox, Step e ⟨.store (.settle published now rest owner), some (.ok u)⟩ (g e) := by
  refine ⟨_, List.map_map, fun e _ => ?_⟩
  have unmarked : ¬ published.contains e.id = true → e.id ∉ published :=
    fun h hmem => h (List.contains_iff_mem.2 hmem)
  dsimp only [Function.comp_apply]
  by_cases hp : published.contains e.id = true
  -- a published event has no claim that could be given up
  · have hheld : Memory.isHeldBy owner (Memory.publishedAt now e) = false := rfl
    rw [if_pos hp]
    simp only [hheld]
    split_ifs
    all_goals exact .published (List.contains_iff_mem.1 hp)
  · rw [if_neg hp]
    split_ifs with hr hheld
    · exact .released (unmarked hp) (List.contains_iff_mem.1 hr) hheld
    all_goals
      refine .kept (by rintro _ _ ⟨⟩) ?_
      rintro _ ⟨⟩
      exact unmarked hp

theorem outbox_answer (w : Surroundings) (r : Request) {m : Memory} (hm : m.Sound) (f : Bool) :
    ∃ g : OutboxEvent → OutboxEvent,
      (w.answer r (.ofMemory m f)).2.memory.outbox = m.outbox.map g ++
        ((Exchange.commit? ⟨r, (w.answer r (.ofMemory m f)).1⟩).getD []).filterMap Row.event? ∧
      ∀ e ∈ m.outbox, Step e ⟨r, (w.answer r (.ofMemory m f)).1⟩ (g e) := by
  cases r with
  | accounts c => exact outbox_kept f rfl rfl rfl
  | audit a => exact outbox_kept f rfl rfl rfl
  | publish t k j => exact outbox_kept f rfl rfl rfl
  | now => exact outbox_kept f rfl rfl rfl
  | freshId => exact outbox_kept f rfl rfl rfl
  | store q =>
    simp only [Surroundings.answer, Store.serve_ofMemory]
    cases q with
    | record key => exact outbox_kept f rfl rfl rfl
    | payment id => exact outbox_kept f rfl rfl rfl
    | activity l => exact outbox_kept f rfl rfl rfl
    | post rows =>
      simp only [StoreRequest.writes, if_true]
      rcases h : (StoreRequest.post rows).work.run m with ⟨e | u, m'⟩
      · cases e <;> exact outbox_kept f rfl rfl rfl
      · cases f with
        | true => exact outbox_kept false rfl rfl rfl
        | false =>
          refine ⟨id, ?_, fun e _ => .kept (by rintro _ _ ⟨⟩) (by rintro _ ⟨⟩)⟩
          have hadd := (Memory.run_insertAll h).1
          have ho : m'.outbox = m.outbox ++ rows.filterMap Row.event? := by
            rw [hadd, Memory.addAll_eq]
          rw [List.map_id]
          exact ho
    | claim limit owner now ttl =>
      simp only [StoreRequest.writes, if_true, Memory.run_claim]
      cases hb : m.batch limit now ttl with
      | error e => cases e <;> exact outbox_kept f rfl rfl rfl
      | ok es =>
        cases f with
        | true => exact outbox_kept false rfl rfl rfl
        | false =>
          obtain ⟨g, ho, hstep⟩ := outbox_claim hm hb
          exact ⟨g, ho.trans (List.append_nil _).symm, hstep⟩
    | settle published now rest owner =>
      simp only [StoreRequest.writes, if_true, Memory.run_settle]
      cases f with
      | true => exact outbox_kept false rfl rfl rfl
      | false =>
        obtain ⟨g, ho, hstep⟩ := outbox_settle (m := m) published now rest owner ()
        exact ⟨g, ho.trans (List.append_nil _).symm, hstep⟩

/-- **What a move does to the outbox** of a store in memory: one step for each event, and new events
at the end. -/
theorem outbox_move {x : Pool ι α} (hx : x.IsInMemory) (hs : x.memory.Sound) (mv : Move ι) :
    ((x.move mv).history = x.history ∧ (x.move mv).memory = x.memory) ∨
      ∃ i ex g, (x.move mv).history = x.history ++ [⟨i, ex⟩] ∧
        (x.move mv).memory.outbox =
          x.memory.outbox.map g ++ (ex.commit?.getD []).filterMap Row.event? ∧
        ∀ e ∈ x.memory.outbox, Step e ex (g e) := by
  obtain ⟨f, hf⟩ := hx
  cases mv with
  | failNext =>
    refine .inl ⟨rfl, ?_⟩
    rw [move, memory, hf, Store.failNext_ofMemory, Store.memory_ofMemory]
  | turn i w =>
    obtain hx | ⟨r, k, hk, hx⟩ := x.turn_cases i w
    · rw [move, hx]
      exact .inl ⟨rfl, rfl⟩
    · obtain ⟨g, ho, hstep⟩ := outbox_answer w r hs f
      rw [← hf] at ho hstep
      rw [move, hx]
      exact .inr ⟨i, _, g, rfl, ho, hstep⟩

/-- **What a claim gives**: free events of the outbox, each once. -/
theorem batch_of_answer {w : Surroundings} {r : Request} {m : Memory} (hm : m.Sound) {f : Bool}
    {now : Instant} {events : List OutboxEvent}
    (h : Exchange.claim? ⟨r, (w.answer r (.ofMemory m f)).1⟩ = some (now, events)) :
    (events.map (·.id)).Nodup ∧ ∃ limit owner ttl, r = .store (.claim limit owner now ttl) ∧
      ∀ e ∈ events, ∃ e₀ ∈ m.outbox, e₀.bare = e.bare ∧ e₀.isClaimable now ttl = some true := by
  rcases r with q | _ | _ | _ | _ | _
  · cases q with
    | claim limit owner now' ttl =>
      simp only [Surroundings.answer, Store.serve_ofMemory, StoreRequest.writes, if_true,
        Memory.run_claim] at h
      cases hb : m.batch limit now' ttl with
      | error e =>
        rw [hb] at h
        cases e <;> cases h
      | ok es =>
        rw [hb] at h
        cases f with
        | true => cases h
        | false =>
          cases h
          obtain ⟨hmem, hnodup⟩ := Memory.batch_eq_ok hb
          have hids : (es.map (Memory.claimed owner now)).map (·.id) = es.map (·.id) := by
            simp [Memory.claimed]
          refine ⟨hids ▸ hnodup hm, limit, owner, ttl, rfl, fun e he => ?_⟩
          obtain ⟨e₀, he₀, rfl⟩ := List.mem_map.1 he
          exact ⟨e₀, (hmem e₀ he₀).1, rfl, (hmem e₀ he₀).2⟩
    | _ => cases h
  all_goals cases h

/-- **Events are never lost**, stay what they were inserted as, and stay published. -/
theorem event_after {x : Pool ι α} (hx : x.IsInMemory) (hs : x.memory.Sound) {e : OutboxEvent}
    (he : e ∈ x.memory.outbox) (ms : List (Move ι)) :
    ∃ e' ∈ (x.after ms).memory.outbox, e'.bare = e.bare ∧
      (e.published = true → e'.published = true) := by
  refine (after_induction (P := fun y => (y.IsInMemory ∧ y.memory.Sound) ∧
    ∃ e' ∈ y.memory.outbox, e'.bare = e.bare ∧ (e.published = true → e'.published = true))
    ⟨⟨hx, hs⟩, e, he, rfl, id⟩ ?_ ms).2
  rintro y mv ⟨⟨hy, hys⟩, e', he', hb, hp⟩
  obtain ⟨hmem, hsound, -⟩ := move_memory hy mv
  refine ⟨⟨hmem, hsound hys⟩, ?_⟩
  obtain ⟨-, hm⟩ | ⟨i, ex, g, -, ho, hstep⟩ := outbox_move hy hys mv
  · rw [hm]
    exact ⟨e', he', hb, hp⟩
  · rw [ho]
    exact ⟨g e', List.mem_append_left _ (List.mem_map_of_mem he'), (hstep e' he').bare_eq.trans hb,
      fun h => (hstep e' he').published_of (hp h)⟩

/-- **The moment of a claim**: what it gave were free events of the outbox, each once. -/
theorem exists_moment_of_claim {x : Pool ι α} (hx : x.IsInMemory) (hs : x.memory.Sound)
    (ms : List (Move ι)) {h h' : List (Event ι)} {ev : Event ι} {now : Instant}
    {events : List OutboxEvent} (hh : (x.after ms).history = x.history ++ h ++ ev :: h')
    (hclaim : ev.exchange.claim? = some (now, events)) :
    ∃ ms₁ ms₂ w, ms = ms₁ ++ .turn ev.call w :: ms₂ ∧ (x.after ms₁).history = x.history ++ h ∧
      ((x.after ms₁).move (.turn ev.call w)).history = x.history ++ h ++ [ev] ∧
      (events.map (·.id)).Nodup ∧ ∃ limit owner ttl a,
        ev = ⟨ev.call, .store (.claim limit owner now ttl), a⟩ ∧
        ∀ e ∈ events, ∃ e₀ ∈ (x.after ms₁).memory.outbox, e₀.bare = e.bare ∧
          e₀.isClaimable now ttl = some true := by
  obtain ⟨ms₁, ms₂, w, r, k, hms, hpast, hrest, hev⟩ := exists_moment x ms hh
  obtain ⟨⟨f, hf⟩, hsound, -⟩ := after_memory hx ms₁
  have hturn := history_turn hrest w
  rw [← hev, hpast] at hturn
  rw [hev, hf] at hclaim
  obtain ⟨hnodup, limit, owner, ttl, rfl, hfree⟩ := batch_of_answer (hsound hs) hclaim
  exact ⟨ms₁, ms₂, w, hms, hpast, hturn, hnodup, limit, owner, ttl, _, hev, hfree⟩

end Pool

end DoubleEntry
