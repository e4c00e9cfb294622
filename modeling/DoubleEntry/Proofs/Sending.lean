import DoubleEntry.Proofs.RelayTask

/-!
# Sent events

What iterations claim are events of the outbox, each once, and an event is published only if some
iteration has published its message before (`Relay.mem_messages_of_published`).

## Main definitions

* `Relay.Claims`: a claim in the history.
* `Relay.Passed`: the clock has shown that a claim is stale.
-/

namespace DoubleEntry

namespace Relay

open Log

variable {ι : Type} [DecidableEq ι]

/-- By an event of the history, a task claims an event of the outbox, with an instant. -/
def Claims (ev : Event ι) (i : ι) (t : Instant) (id : EventId) : Prop :=
  ev.call = i ∧ ∃ events, ev.exchange.claim? = some (t, events) ∧ id ∈ events.map (·.id)

/-- The clock has shown an instant that is more than `ttl` after `t`. -/
def Passed (ttl : Int) (t : Instant) (h : List (Event ι)) : Prop :=
  ∃ ev ∈ h, ∃ now stale, ev.exchange.reading? = some now ∧ now.shift (-ttl) = some stale ∧ t < stale

omit [DecidableEq ι] in
theorem Passed.append {ttl : Int} {t : Instant} {h : List (Event ι)} (hp : Passed ttl t h)
    (h' : List (Event ι)) : Passed ttl t (h ++ h') := by
  obtain ⟨ev, hev, hp⟩ := hp
  exact ⟨ev, List.mem_append_left h' hev, hp⟩

variable {f : Bool} {tasks : ι → Task}

theorem isInMemory (ms : List (Move ι)) : ((start f tasks).after ms).IsInMemory :=
  Pool.isInMemory_after .empty f _ ms

theorem sound (ms : List (Move ι)) : ((start f tasks).after ms).memory.Sound :=
  Pool.sound_after f _ ms Memory.sound_empty

theorem after_move (ms : List (Move ι)) (mv : Move ι) :
    ((start f tasks).after ms).move mv = (start f tasks).after (ms ++ [mv]) := by
  rw [Pool.after_append]
  rfl

/-! ### Claimed events -/

theorem exists_claims {x : Workers ι} {i : ι} {id : EventId}
    (h : id ∈ (claimed (x.log i)).map (·.id)) : ∃ ev ∈ x.history, ∃ t, Claims ev i t id := by
  obtain ⟨e, he, rfl⟩ := List.mem_map.1 h
  obtain ⟨⟨t, events⟩, hc, he⟩ := List.mem_flatMap.1 he
  obtain ⟨ex, hex, hc⟩ := List.mem_filterMap.1 hc
  exact ⟨⟨i, ex⟩, Pool.mem_log.1 hex, t, rfl, events, hc, List.mem_map_of_mem he⟩

theorem Claims.exists_iterate {ms : List (Move ι)} {ev : Event ι} {i : ι} {t : Instant}
    {id : EventId} (hc : Claims ev i t id) (hev : ev ∈ ((start f tasks).after ms).history) :
    ∃ c, tasks i = .iterate c := by
  obtain ⟨rfl, events, hclaim, -⟩ := hc
  obtain ⟨limit, owner, ttl, hex⟩ := Exchange.eq_of_claim? hclaim
  have hmem : ev.exchange ∈ ((start f tasks).after ms).log ev.call := Pool.mem_log.2 hev
  rw [hex] at hmem
  obtain ⟨c, hc, -⟩ := claim_of_mem f tasks ms hmem
  exact ⟨c, hc⟩

theorem exists_event_of_claimed {ms : List (Move ι)} {i : ι} {e : OutboxEvent}
    (h : e ∈ claimed (((start f tasks).after ms).log i)) :
    ∃ e' ∈ ((start f tasks).after ms).memory.outbox, e'.bare = e.bare := by
  obtain ⟨⟨t, events⟩, hc, he⟩ := List.mem_flatMap.1 h
  obtain ⟨ex, hex, hc⟩ := List.mem_filterMap.1 hc
  obtain ⟨past, later, hh⟩ := List.append_of_mem (Pool.mem_log.1 hex)
  obtain ⟨ms₁, ms₂, w, rfl, -, -, -, limit, owner, ttl, a, -, hfree⟩ :=
    Pool.exists_moment_of_claim (Pool.isInMemory_onMemory .empty f _) Memory.sound_empty ms hh hc
  obtain ⟨e₀, he₀, hb, -⟩ := hfree e he
  rw [Pool.after_append]
  obtain ⟨e', he', hb', -⟩ := Pool.event_after (isInMemory ms₁) (sound ms₁) he₀ _
  exact ⟨e', he', hb'.trans hb⟩

theorem nodup_claimed (ms : List (Move ι)) (i : ι) :
    ((claimed (((start f tasks).after ms).log i)).map (·.id)).Nodup := by
  have hlen := length_claims_le f tasks ms i
  rw [claimed]
  -- a task claims at most once, so the events are those of one batch
  rcases hc : (((start f tasks).after ms).log i).filterMap Exchange.claim? with
    _ | ⟨⟨t, events⟩, _ | ⟨b, rest⟩⟩
  · exact List.nodup_nil
  · have hmem : (t, events) ∈ (((start f tasks).after ms).log i).filterMap Exchange.claim? := by
      rw [hc]
      exact List.mem_singleton_self _
    obtain ⟨ex, hex, hclaim⟩ := List.mem_filterMap.1 hmem
    obtain ⟨past, later, hh⟩ := List.append_of_mem (Pool.mem_log.1 hex)
    obtain ⟨-, -, -, -, -, -, hnodup, -⟩ := Pool.exists_moment_of_claim
      (Pool.isInMemory_onMemory .empty f _) Memory.sound_empty ms hh hclaim
    simpa using hnodup
  · rw [hc] at hlen
    simp at hlen

/-! ### Published events -/

/-- An event that was marked has the message of one that was sent. -/
theorem mem_messages_of_settle {ms : List (Move ι)} {i : ι} {published : List EventId}
    {now : Instant} {rest : List EventId} {owner : String}
    {a : Option (Request.store (.settle published now rest owner)).Answer}
    (hex : ⟨.store (.settle published now rest owner), a⟩ ∈ ((start f tasks).after ms).log i)
    {e : OutboxEvent} (he : e ∈ ((start f tasks).after ms).memory.outbox)
    (hid : e.id ∈ published) : e.message ∈ messages (((start f tasks).after ms).log i) := by
  obtain ⟨c, -, -, hsent, -⟩ := settle_of_mem f tasks ms hex
  rw [hsent] at hid
  obtain ⟨s, hs, hid⟩ := List.mem_map.1 hid
  -- what was sent was claimed, so it is an event of the outbox, and known by its identifier
  obtain ⟨e', he', hb⟩ := exists_event_of_claimed (List.mem_of_mem_take hs)
  obtain rfl := (sound ms).event_eq he' he ((OutboxEvent.id_eq_of_bare hb).trans hid)
  rw [OutboxEvent.message_eq_of_bare hb, messages_eq f tasks ms i]
  exact List.mem_map_of_mem hs

/-- **An event is published only if** its message was. -/
theorem mem_messages_of_published (ms : List (Move ι)) :
    ∀ e ∈ ((start f tasks).after ms).memory.outbox, e.published = true →
      ∃ i, e.message ∈ messages (((start f tasks).after ms).log i) := by
  induction ms using List.reverseRecOn with
  | nil => exact List.forall_mem_nil _
  | append_singleton ms mv ih =>
    intro e he hp
    have kept : ∀ e₀ ∈ ((start f tasks).after ms).memory.outbox, e₀.published = true →
        e₀.bare = e.bare →
        ∃ i, e.message ∈ messages (((start f tasks).after (ms ++ [mv])).log i) := by
      intro e₀ he₀ hp₀ hb
      obtain ⟨i, hi⟩ := ih e₀ he₀ hp₀
      rw [← OutboxEvent.message_eq_of_bare hb, Pool.after_append]
      exact ⟨i, ((Pool.log_isPrefix_after _ [mv] i).filterMap _).subset hi⟩
    obtain ⟨-, hm⟩ | ⟨i, ex, g, hh, ho, hstep⟩ := Pool.outbox_move (isInMemory ms) (sound ms) mv
    · rw [after_move] at hm
      rw [hm] at he
      exact kept e he hp rfl
    · rw [after_move] at hh ho
      have hex := Pool.mem_log_of_append hh
      have hmem := he
      rw [ho, List.mem_append] at hmem
      obtain hmem | hmem := hmem
      · obtain ⟨e₀, he₀, rfl⟩ := List.mem_map.1 hmem
        cases hp₀ : e₀.published with
        | true => exact kept e₀ he₀ hp₀ (hstep e₀ he₀).bare_eq.symm
        | false =>
          obtain ⟨published, now, rest, owner, u, rfl, hid⟩ := (hstep e₀ he₀).mem_marked hp₀ hp
          rw [← (hstep e₀ he₀).id_eq] at hid
          exact ⟨i, mem_messages_of_settle hex he hid⟩
      -- an event that was inserted is not published yet
      · rw [← bare_of_commit f tasks (ms ++ [mv]) hex hmem] at hp
        cases hp

/-- **An event that was published is never claimed again.** -/
theorem not_claims_of_published (ms ms' : List (Move ι)) {e : OutboxEvent}
    (he : e ∈ ((start f tasks).after ms).memory.outbox) (hp : e.published = true) :
    ∀ ev ∈ (((start f tasks).after ms).after ms').history.drop
      ((start f tasks).after ms).history.length, ∀ i t, ¬ Claims ev i t e.id := by
  rintro ev hev i t ⟨-, events, hclaim, hmem⟩
  obtain ⟨later, hlater⟩ := Pool.history_isPrefix_after ((start f tasks).after ms) ms'
  rw [← hlater, List.drop_left] at hev
  obtain ⟨past, rest, rfl⟩ := List.append_of_mem hev
  rw [← List.append_assoc] at hlater
  obtain ⟨ms₁, ms₂, w, -, -, -, -, _, _, _, _, -, hfree⟩ :=
    Pool.exists_moment_of_claim (isInMemory ms) (sound ms) ms' hlater.symm hclaim
  obtain ⟨e₁, he₁, hid⟩ := List.mem_map.1 hmem
  obtain ⟨e₀, he₀, hb, hclaimable⟩ := hfree e₁ he₁
  -- the event is still published at the moment of the claim
  obtain ⟨e', he', hb', hp'⟩ := Pool.event_after (isInMemory ms) (sound ms) he ms₁
  have hid' : e₀.id = e'.id := by
    rw [OutboxEvent.id_eq_of_bare hb, hid, OutboxEvent.id_eq_of_bare hb']
  rw [← Pool.after_append] at he₀ he'
  obtain rfl := (sound (ms ++ ms₁)).event_eq he₀ he' hid'
  rw [(OutboxEvent.isClaimable_eq_some_true hclaimable).1] at hp'
  cases hp' hp

end Relay

end DoubleEntry
