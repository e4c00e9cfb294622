import DoubleEntry.Proofs.Sending

/-!
# Claims that are taken over

An event that an iteration has claimed and publishes is published, or the claim is stale, or it
still stands and nobody else has claimed the event since (`Relay.Standing`).  So whoever claims it
next finds the claim stale (`Relay.passed_of_claims`).

## Main definitions

* `OutboxEvent.IsHeld`: a claim on an event.
* `Relay.Standing`: what has become of a claim.
-/

namespace DoubleEntry

/-- The event has a claim of a worker, made with an instant. -/
structure OutboxEvent.IsHeld (e : OutboxEvent) (worker : String) (t : Instant) : Prop where
  processing : e.processing = true
  owner : e.processingOwner = some worker
  claimedAt : e.processingAt = some t

theorem Memory.owner_of_isHeldBy {owner : String} {e : OutboxEvent}
    (h : isHeldBy owner e = true) : e.processingOwner = some owner := by
  simp only [isHeldBy, Bool.and_eq_true, decide_eq_true_eq] at h
  exact h.2

namespace Relay

open Log

variable {ι : Type} [DecidableEq ι]

/-- What has become of a claim on an event that the iteration publishes. -/
inductive Standing (ttl : Int) (id : EventId) (worker : String) (t : Instant)
    (past : List (Event ι)) (x : Workers ι) : Prop
  | published {e : OutboxEvent} (mem : e ∈ x.memory.outbox) (id_eq : e.id = id)
    (published : e.published = true)
  | stale (passed : Passed ttl t x.history)
  /-- The claim stands, and nobody else has claimed the event since. -/
  | held {e : OutboxEvent} (mem : e ∈ x.memory.outbox) (id_eq : e.id = id)
    (held : e.IsHeld worker t) (since : List (Event ι)) (history : x.history = past ++ since)
    (unclaimed : ∀ ev ∈ since, ∀ j t', ¬ Claims ev j t' id)

variable {f : Bool} {tasks : ι → Task} {ttl : Int} {i : ι} {c : RelayConfig} {id : EventId}
  {t : Instant} {h : List (Event ι)} {ev : Event ι}

omit [DecidableEq ι] in
theorem sublist_of_mem {j : ι} {past : List (Event ι)} {ev' : Event ι} (hpast : ev' ∈ past)
    (hcall : ev'.call = j) (ev : Event ι) (since : List (Event ι)) (ex : Exchange) :
    [j, ev.call, j].Sublist ((past ++ [ev] ++ since ++ [Event.mk j ex]).map Event.call) := by
  have before : [j].Sublist (past.map Event.call) :=
    List.singleton_sublist.2 (hcall ▸ List.mem_map_of_mem hpast)
  have after : [j].Sublist ((since ++ [Event.mk j ex]).map Event.call) := by simp
  simpa using before.append (after.cons_cons ev.call)

/-- The worker whose claim stands does not give it up: what it gives up it has claimed before, in an
earlier iteration, which has ended, or in this one, which publishes the event. -/
theorem not_mem_rest (hi : tasks i = .iterate c) (hev : Claims ev i t id) {ms ms' : List (Move ι)}
    {j : ι} {since : List (Event ι)} {published rest : List EventId} {now : Instant} {u : Unit}
    (hseq : Sequential tasks ((start f tasks).after (ms ++ ms')))
    (hsent : id ∈ (sent (((start f tasks).after (ms ++ ms')).log i)).map (·.id))
    (hh : ((start f tasks).after ms).history = h ++ [ev] ++ since ++
      [⟨j, .store (.settle published now rest c.workerId), some (.ok u)⟩])
    (unmarked : id ∉ published) (unclaimed : ∀ ev ∈ since, ∀ j t', ¬ Claims ev j t' id) :
    id ∉ rest := by
  intro hrest
  have hex := Pool.mem_log_of_append hh
  obtain ⟨d, hd, hworker, -, rfl⟩ := settle_of_mem f tasks ms hex
  -- the iteration that publishes the event marks it when it ends
  have hij : j ≠ i := by
    rintro rfl
    have hend := (Pool.log_isPrefix_after _ ms' j).subset hex
    rw [← Pool.after_append] at hend
    obtain ⟨-, -, -, rfl, -⟩ := settle_of_mem f tasks (ms ++ ms') hend
    exact unmarked hsent
  -- so another iteration of the worker has claimed the event, at some time before it ends
  obtain ⟨ev', hev', t', hc⟩ := exists_claims
    (List.map_subset _ (List.drop_subset _ _) hrest)
  rw [hh, List.mem_append, List.mem_append, List.mem_append, List.mem_singleton,
    List.mem_singleton] at hev'
  rcases hev' with ((hpast | rfl) | hsince) | rfl
  · refine hij (hseq j i c.workerId ?_ ?_ ?_)
    · rw [hd, hworker]
      rfl
    · rw [hi]
      rfl
    · have hsub : [j, i, j].Sublist (((start f tasks).after ms).history.map Event.call) := by
        rw [hh, ← hev.1]
        exact sublist_of_mem hpast hc.1 ev since _
      rw [Pool.after_append]
      exact hsub.trans ((Pool.history_isPrefix_after _ ms').sublist.map _)
  · exact hij (hc.1.symm.trans hev.1)
  · exact unclaimed ev' hsince j t' hc
  · obtain ⟨-, events, hclaim, -⟩ := hc
    cases hclaim

/-- What one request does to a claim that stands, one case for each step of the event. -/
theorem standing_of_step (httl : ∀ i c, tasks i = .iterate c → Relay.ttl c = ttl)
    (hi : tasks i = .iterate c) (hev : Claims ev i t id) {ms ms' : List (Move ι)} {j : ι}
    {ex : Exchange} {since : List (Event ι)}
    (hseq : Sequential tasks ((start f tasks).after (ms ++ ms')))
    (hsent : id ∈ (sent (((start f tasks).after (ms ++ ms')).log i)).map (·.id))
    (hh : ((start f tasks).after ms).history = h ++ [ev] ++ since ++ [⟨j, ex⟩])
    (unclaimed : ∀ ev ∈ since, ∀ j t', ¬ Claims ev j t' id) {e e' : OutboxEvent}
    (he : e' ∈ ((start f tasks).after ms).memory.outbox) (id_eq : e.id = id)
    (held : e.IsHeld c.workerId t) (hstep : e.Step ex e') :
    Standing ttl id c.workerId t (h ++ [ev]) ((start f tasks).after ms) := by
  have hex := Pool.mem_log_of_append hh
  cases hstep with
  | kept unclaimed' unmarked =>
    refine .held he id_eq held (since ++ [⟨j, ex⟩]) ?_ ?_
    · rw [hh, List.append_assoc]
    · intro ev' hev' j' t' hc
      obtain hev' | hev' := List.mem_append.1 hev'
      · exact unclaimed ev' hev' j' t' hc
      · obtain rfl := List.mem_singleton.1 hev'
        obtain ⟨-, events, hc, hid⟩ := hc
        exact unclaimed' t' events hc (id_eq ▸ hid)
  -- whoever claims the event was shown that the claim is stale
  | claimed free =>
    obtain ⟨d, hd, -, rfl, hnow⟩ := claim_of_mem f tasks _ hex
    obtain ⟨-, hstale⟩ := OutboxEvent.isClaimable_eq_some_true free
    obtain ⟨stale, hshift, hlt⟩ := hstale t held.processing held.claimedAt
    rw [httl j d hd] at hshift
    exact .stale ⟨⟨j, _⟩, Pool.mem_log.1 hnow, _, stale, rfl, hshift, hlt⟩
  | published marked => exact .published he id_eq rfl
  -- only the worker itself could give the claim up, and it does not
  | released unmarked released isHeld =>
    rw [id_eq] at unmarked released
    have howner := Memory.owner_of_isHeldBy isHeld
    rw [held.owner] at howner
    obtain rfl := Option.some.inj howner
    exact absurd released (not_mem_rest hi hev hseq hsent hh unmarked unclaimed)

/-- A request keeps a claim standing, publishes the event, or shows the claim to be stale. -/
theorem Standing.move (httl : ∀ i c, tasks i = .iterate c → Relay.ttl c = ttl)
    (hi : tasks i = .iterate c) (hev : Claims ev i t id) {ms : List (Move ι)} {mv : Move ι}
    {ms' : List (Move ι)}
    (hseq : Sequential tasks ((start f tasks).after (ms ++ [mv] ++ ms')))
    (hsent : id ∈ (sent (((start f tasks).after (ms ++ [mv] ++ ms')).log i)).map (·.id))
    (hs : Standing ttl id c.workerId t (h ++ [ev]) ((start f tasks).after ms)) :
    Standing ttl id c.workerId t (h ++ [ev]) ((start f tasks).after (ms ++ [mv])) := by
  obtain ⟨hh, hm⟩ | ⟨j, ex, g, hh, ho, hstep⟩ := Pool.outbox_move (isInMemory ms) (sound ms) mv
  · rw [after_move] at hh hm
    cases hs with
    | published mem id_eq hp => exact .published (hm ▸ mem) id_eq hp
    | stale passed => exact .stale (hh ▸ passed)
    | held mem id_eq held since history unclaimed =>
      exact .held (hm ▸ mem) id_eq held since (hh ▸ history) unclaimed
  · rw [after_move] at hh ho
    have mem_g : ∀ e ∈ ((start f tasks).after ms).memory.outbox,
        g e ∈ ((start f tasks).after (ms ++ [mv])).memory.outbox := by
      intro e he
      rw [ho]
      exact List.mem_append_left _ (List.mem_map_of_mem he)
    cases hs with
    | published mem id_eq hp =>
      exact .published (mem_g _ mem) ((hstep _ mem).id_eq.trans id_eq)
        ((hstep _ mem).published_of hp)
    | stale passed => exact .stale (hh ▸ passed.append _)
    | @held e mem id_eq held since history unclaimed =>
      rw [history] at hh
      exact standing_of_step httl hi hev hseq hsent hh unclaimed (mem_g e mem) id_eq held
        (hstep e mem)

theorem standing_of_claims (hi : tasks i = .iterate c) (hev : Claims ev i t id) {ms : List (Move ι)}
    {mv : Move ι} (hpast : ((start f tasks).after ms).history = h)
    (hh : ((start f tasks).after (ms ++ [mv])).history = h ++ [ev])
    (hfree : ∃ e ∈ ((start f tasks).after ms).memory.outbox, e.id = id) :
    Standing ttl id c.workerId t (h ++ [ev]) ((start f tasks).after (ms ++ [mv])) := by
  obtain ⟨e, he, hid⟩ := hfree
  obtain ⟨hcall, events, hclaim, hmem⟩ := hev
  obtain ⟨hkept, -⟩ | ⟨j, ex, g, hnew, ho, hstep⟩ := Pool.outbox_move (isInMemory ms) (sound ms) mv
  · rw [after_move, hh, hpast] at hkept
    simp at hkept
  · rw [after_move] at hnew ho
    rw [hh, hpast] at hnew
    obtain rfl := List.cons.inj (List.append_cancel_left hnew) |>.1
    have hex := Pool.mem_log_of_append hh
    have hg : g e ∈ ((start f tasks).after (ms ++ [mv])).memory.outbox := by
      rw [ho]
      exact List.mem_append_left _ (List.mem_map_of_mem he)
    have hstep := hstep e he
    generalize g e = e' at hg hstep
    cases hstep with
    | kept unclaimed _ => exact absurd (hid ▸ hmem) (unclaimed t events hclaim)
    | published _ => cases hclaim
    | released _ _ _ => cases hclaim
    | claimed _ =>
      cases hclaim
      obtain ⟨d, hd, rfl, -⟩ := claim_of_mem f tasks _ hex
      have hdc : d = c := by
        cases hcall
        rw [hd] at hi
        cases hi
        rfl
      subst hdc
      exact .held hg hid ⟨rfl, rfl, rfl⟩ [] (by rw [hh, List.append_nil]) (List.forall_mem_nil _)

theorem standing_after (httl : ∀ i c, tasks i = .iterate c → Relay.ttl c = ttl)
    (hi : tasks i = .iterate c) (hev : Claims ev i t id) {ms : List (Move ι)}
    (hs : Standing ttl id c.workerId t (h ++ [ev]) ((start f tasks).after ms))
    (ms₁ ms₂ : List (Move ι)) (hseq : Sequential tasks ((start f tasks).after (ms ++ ms₁ ++ ms₂)))
    (hsent : id ∈ (sent (((start f tasks).after (ms ++ ms₁ ++ ms₂)).log i)).map (·.id)) :
    Standing ttl id c.workerId t (h ++ [ev]) ((start f tasks).after (ms ++ ms₁)) := by
  induction ms₁ using List.reverseRecOn generalizing ms₂ with
  | nil => rwa [List.append_nil]
  | append_singleton ms₁ mv ih =>
    have hassoc : ms ++ (ms₁ ++ [mv]) ++ ms₂ = ms ++ ms₁ ++ (mv :: ms₂) := by simp
    rw [hassoc] at hseq hsent
    have hlast := ih (mv :: ms₂) hseq hsent
    have hassoc' : ms ++ ms₁ ++ (mv :: ms₂) = ms ++ ms₁ ++ [mv] ++ ms₂ := by simp
    rw [hassoc'] at hseq hsent
    rw [← List.append_assoc]
    exact hlast.move httl hi hev hseq hsent

theorem standing_of_history (httl : ∀ i c, tasks i = .iterate c → Relay.ttl c = ttl)
    (hi : tasks i = .iterate c) (hev : Claims ev i t id) {ms ms' : List (Move ι)}
    {h' : List (Event ι)} (hh : ((start f tasks).after ms).history = h ++ ev :: h')
    (hseq : Sequential tasks ((start f tasks).after (ms ++ ms')))
    (hsent : id ∈ (sent (((start f tasks).after (ms ++ ms')).log i)).map (·.id)) :
    Standing ttl id c.workerId t (h ++ [ev]) ((start f tasks).after ms) := by
  obtain ⟨events, hclaim, hmem⟩ := hev.2
  obtain ⟨ms₁, ms₂, w, rfl, hpast, hturn, -, _, _, _, _, -, hfree⟩ := Pool.exists_moment_of_claim
    (Pool.isInMemory_onMemory .empty f fun i => (tasks i).program) Memory.sound_empty ms hh hclaim
  obtain ⟨e, he, hid⟩ := List.mem_map.1 hmem
  obtain ⟨e₀, he₀, hb, -⟩ := hfree e he
  have hturn : ((start f tasks).after (ms₁ ++ [.turn ev.call w])).history = h ++ [ev] := by
    rw [← after_move]
    exact hturn
  have hpast : ((start f tasks).after ms₁).history = h := hpast
  have hs : Standing ttl id c.workerId t (h ++ [ev])
      ((start f tasks).after (ms₁ ++ [.turn ev.call w])) := standing_of_claims hi hev hpast hturn
    ⟨e₀, he₀, (OutboxEvent.id_eq_of_bare hb).trans hid⟩
  have hassoc : ms₁ ++ .turn ev.call w :: ms₂ = ms₁ ++ [.turn ev.call w] ++ ms₂ := by simp
  rw [hassoc] at hseq hsent ⊢
  exact standing_after httl hi hev hs ms₂ ms' hseq hsent

/-- **Whoever claims an event next finds the claim stale**, if the iteration that claimed it first
publishes it. -/
theorem passed_of_claims (httl : ∀ i c, tasks i = .iterate c → Relay.ttl c = ttl)
    (hi : tasks i = .iterate c) {ms : List (Move ι)}
    (hseq : Sequential tasks ((start f tasks).after ms)) {j : ι} {t' : Instant}
    {h' h'' : List (Event ι)} {ev' : Event ι}
    (hh : ((start f tasks).after ms).history = h ++ ev :: h' ++ ev' :: h'')
    (hev : Claims ev i t id) (hev' : Claims ev' j t' id)
    (hsent : id ∈ (sent (((start f tasks).after ms).log i)).map (·.id)) :
    Passed ttl t (h ++ ev :: h') := by
  obtain ⟨-, events, hclaim, hmem⟩ := hev'
  obtain ⟨ms, ms', w, rfl, hpast, hturn, -, limit, owner, ttl', a, hreq, hfree⟩ :=
    Pool.exists_moment_of_claim (Pool.isInMemory_onMemory .empty f fun i => (tasks i).program)
      Memory.sound_empty ms hh hclaim
  have hpast : ((start f tasks).after ms).history = h ++ ev :: h' := hpast
  obtain ⟨e', he', hid⟩ := List.mem_map.1 hmem
  obtain ⟨e₀, he₀, hb, hclaimable⟩ := hfree e' he'
  have hid₀ : e₀.id = id := (OutboxEvent.id_eq_of_bare hb).trans hid
  obtain ⟨hunpublished, hstale⟩ := OutboxEvent.isClaimable_eq_some_true hclaimable
  cases standing_of_history httl hi hev hpast hseq hsent with
  | @published e he hide hp =>
    obtain rfl := (sound ms).event_eq he he₀ (hide.trans hid₀.symm)
    rw [hunpublished] at hp
    cases hp
  | stale passed => exact hpast ▸ passed
  | @held e he hide held _ _ _ =>
    obtain rfl := (sound ms).event_eq he he₀ (hide.trans hid₀.symm)
    obtain ⟨stale, hshift, hlt⟩ := hstale t held.processing held.claimedAt
    have hturn : ((start f tasks).after (ms ++ [.turn ev'.call w])).history =
        h ++ ev :: h' ++ [ev'] := by
      rw [← after_move]
      exact hturn
    have hex : ⟨.store (.claim limit owner t' ttl'), a⟩ ∈
        ((start f tasks).after (ms ++ [.turn ev'.call w])).log ev'.call := by
      rw [Pool.mem_log, hturn, ← hreq]
      exact List.mem_append_right _ (List.mem_singleton_self _)
    obtain ⟨d, hd, -, rfl, hnow⟩ := claim_of_mem f tasks _ hex
    rw [Pool.mem_log, hturn, List.mem_append, List.mem_singleton] at hnow
    rw [httl _ d hd] at hshift
    obtain hnow | hnow := hnow
    · exact ⟨_, hnow, t', stale, rfl, hshift, hlt⟩
    · rw [hreq] at hnow
      cases hnow

end Relay

end DoubleEntry
