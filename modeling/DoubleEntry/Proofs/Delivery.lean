import DoubleEntry.Proofs.Takeover

/-!
# Delivery

Any number of workers share an outbox.  An event is published only if a worker has published its
message; it is not lost, and once published stays so and is not claimed again; and where two
iterations publish one event, the claim of one was stale when the other claimed it
(`Relay.delivery`).  Which of the two publishes first is open: a worker that was overtaken may
publish last (`Relay.not_unmarkedOrLate`).

## Main definitions

* `Relay.Overtaken`: a claim was stale when another one was made.
* `Relay.Delivers`: what may be relied on.
* `Relay.takeover`: a slow worker is overtaken, and publishes last.
-/

namespace DoubleEntry

namespace Relay

open Log

variable {ι : Type} [DecidableEq ι]

/-- A task claimed an event before another one did, and its claim was stale when the other one
claimed the event. -/
def Overtaken (ttl : Int) (id : EventId) (i j : ι) (x : Workers ι) : Prop :=
  ∃ (h h' h'' : List (Event ι)) (ev ev' : Event ι) (t t' : Instant),
    x.history = h ++ ev :: h' ++ ev' :: h'' ∧ Claims ev i t id ∧ Claims ev' j t' id ∧
      Passed ttl t (h ++ ev :: h')

/-- What may be relied on. -/
structure Delivers (ttl : Int) (x : Workers ι) : Prop where
  /-- What a task publishes are the messages of the events that it sends, in their order. -/
  messages : ∀ i, messages (x.log i) = (sent (x.log i)).map OutboxEvent.message
  /-- An event is published only if its message was. -/
  published : ∀ e ∈ x.memory.outbox, e.published = true → ∃ i, e.message ∈ Log.messages (x.log i)
  /-- No event is ever lost or changed, or published no longer. -/
  kept : ∀ e ∈ x.memory.outbox, ∀ ms, ∃ e' ∈ (x.after ms).memory.outbox, e'.bare = e.bare ∧
    (e.published = true → e'.published = true)
  /-- A published event is never claimed again. -/
  final : ∀ e ∈ x.memory.outbox, e.published = true → ∀ ms,
    ∀ ev ∈ (x.after ms).history.drop x.history.length, ∀ i t, ¬ Claims ev i t e.id
  /-- A task sends an event at most once. -/
  once : ∀ i, ((sent (x.log i)).map (·.id)).Nodup
  /-- If two tasks send an event, one has overtaken the other. -/
  overtaken : ∀ i j, i ≠ j → ∀ id, id ∈ (sent (x.log i)).map (·.id) →
    id ∈ (sent (x.log j)).map (·.id) → Overtaken ttl id i j x ∨ Overtaken ttl id j i x

variable {f : Bool} {tasks : ι → Task} {ttl : Int} {i j : ι} {id : EventId}

theorem overtaken_or (httl : ∀ i c, tasks i = .iterate c → Relay.ttl c = ttl) {ms : List (Move ι)}
    (hseq : Sequential tasks ((start f tasks).after ms)) (hij : i ≠ j)
    (hi : id ∈ (sent (((start f tasks).after ms).log i)).map (·.id))
    (hj : id ∈ (sent (((start f tasks).after ms).log j)).map (·.id)) :
    Overtaken ttl id i j ((start f tasks).after ms) ∨
      Overtaken ttl id j i ((start f tasks).after ms) := by
  have claims : ∀ k, id ∈ (sent (((start f tasks).after ms).log k)).map (·.id) →
      ∃ ev ∈ ((start f tasks).after ms).history, ∃ t, Claims ev k t id :=
    fun k hk => exists_claims (List.map_subset _ (List.take_subset _ _) hk)
  obtain ⟨ev, hev, t, hc⟩ := claims i hi
  obtain ⟨ev', hev', t', hc'⟩ := claims j hj
  obtain ⟨c, hci⟩ := hc.exists_iterate hev
  obtain ⟨d, hdj⟩ := hc'.exists_iterate hev'
  obtain ⟨h, rest, hh⟩ := List.append_of_mem hev
  rw [hh, List.mem_append, List.mem_cons] at hev'
  -- one of the two claims was made first
  rcases hev' with hev' | rfl | hev'
  · obtain ⟨h', h'', rfl⟩ := List.append_of_mem hev'
    exact .inr ⟨h', h'', rest, ev', ev, t', t, hh, hc', hc,
      passed_of_claims httl hdj hseq hh hc' hc hj⟩
  · exact absurd (hc.1.symm.trans hc'.1) hij
  · obtain ⟨h', h'', rfl⟩ := List.append_of_mem hev'
    have hh : ((start f tasks).after ms).history = h ++ ev :: h' ++ ev' :: h'' := by
      rw [hh, List.append_assoc, List.cons_append]
    exact .inl ⟨h, h', h'', ev, ev', t, t', hh, hc, hc',
      passed_of_claims httl hci hseq hh hc hc' hi⟩

/-- **What workers of one time-to-live deliver**, if the iterations of each follow one another. -/
theorem delivery (httl : ∀ i c, tasks i = .iterate c → Relay.ttl c = ttl) (ms : List (Move ι))
    (hseq : Sequential tasks ((start f tasks).after ms)) :
    Delivers ttl ((start f tasks).after ms) where
  messages := messages_eq f tasks ms
  published := mem_messages_of_published ms
  kept _ he := Pool.event_after (isInMemory ms) (sound ms) he
  final _ he hp ms' := not_claims_of_published ms ms' he hp
  once i := (nodup_claimed ms i).sublist ((List.take_sublist _ _).map _)
  overtaken _ _ hij _ hi hj := overtaken_or httl hseq hij hi hj

/-! ### A worker that is overtaken -/

/-- An event to be published. -/
def parcel : OutboxEvent :=
  .pending (.ofNat 7) "ledger" (.ofNat 1) OutboxEvent.ledgerPosted (.obj []) .epoch

/-- Five minutes after the epoch. -/
def fiveMinutes : Instant := (Instant.of? 300 0).getD .epoch

/-- An event is inserted, and two workers want to publish it. -/
def takeoverTasks : Fin 3 → Task
  | 0 => .insert [.event parcel] (by rintro e he; cases List.mem_singleton.1 he; rfl)
  | 1 => .iterate { workerId := "slow" }
  | 2 => .iterate { workerId := "quick" }

/-- Turns of a task while the clock shows an instant, everything else being granted. -/
def turns (i : Fin 3) (clock : Instant) (count : Nat) : List (Move (Fin 3)) :=
  List.replicate count (.turn i (.granting clock (.ofNat 0)))

/-- The slow worker claims the event; its claim gets stale, and the quick worker claims, publishes
and marks the event. -/
def takeoverMoves : List (Move (Fin 3)) :=
  turns 0 .epoch 1 ++ turns 1 .epoch 2 ++ turns 2 fiveMinutes 5

/-- Now the slow worker publishes and marks the event. -/
def lateMoves : List (Move (Fin 3)) := turns 1 fiveMinutes 3

/-- Two workers publish an event, the one with the earlier claim last. -/
def takeover : Workers (Fin 3) := (start false takeoverTasks).after (takeoverMoves ++ lateMoves)

theorem ttl_takeoverTasks : ∀ i c, takeoverTasks i = .iterate c → Relay.ttl c = 120000000000 := by
  intro i c h
  match i with
  | 0 => cases h
  | 1 => cases h; rfl
  | 2 => cases h; rfl

theorem sequential_takeover (x : Workers (Fin 3)) : Sequential takeoverTasks x := by
  intro i j w hi hj _
  have h : ∀ i j, (takeoverTasks i).worker? = (takeoverTasks j).worker? →
      (takeoverTasks i).worker? ≠ none → i = j := by decide
  exact h i j (hi.trans hj.symm) (by simp [hi])

/-- Both workers of the takeover publish the event, and one has overtaken the other. -/
theorem takeover_delivers : (∀ i c, takeoverTasks i = .iterate c → Relay.ttl c = 120000000000) ∧
    Sequential takeoverTasks takeover ∧
    (sent (takeover.log 1)).map (·.id) = [parcel.id] ∧
    (sent (takeover.log 2)).map (·.id) = [parcel.id] ∧ Delivers 120000000000 takeover :=
  ⟨ttl_takeoverTasks, sequential_takeover takeover, by decide +kernel, by decide +kernel,
    delivery ttl_takeoverTasks _ (sequential_takeover takeover)⟩

/-- What one task published was never marked, or the claim of the other was made more than `ttl`
after its own. -/
def UnmarkedOrLate (ttl : Int) (i j : ι) (x : Workers ι) : Prop :=
  (x.log i).filterMap Exchange.marked? = [] ∨
    ∃ c ∈ (x.log i).filterMap Exchange.claim?, ∃ c' ∈ (x.log j).filterMap Exchange.claim?,
      ∃ stale, c'.1.shift (-ttl) = some stale ∧ c.1 < stale

/-- The clock never runs backwards. -/
def Forwards (x : Workers ι) : Prop :=
  (x.history.filterMap fun ev => ev.exchange.reading?).Pairwise (· ≤ ·)

/-- **The last to publish need not be the last to claim**: a worker may publish an event, and mark
it, before another one publishes it whose claim was made earlier. -/
theorem not_unmarkedOrLate : ¬ ∀ (tasks : Fin 3 → Task) (ttl : Int) (ms ms' : List (Move (Fin 3))),
    (∀ i c, tasks i = .iterate c → Relay.ttl c = ttl) →
    Sequential tasks ((start false tasks).after (ms ++ ms')) →
    Forwards ((start false tasks).after (ms ++ ms')) → ∀ i j id,
      id ∈ (sent (((start false tasks).after ms).log i)).map (·.id) →
      id ∉ (sent (((start false tasks).after ms).log j)).map (·.id) →
      id ∈ (sent (((start false tasks).after (ms ++ ms')).log j)).map (·.id) →
      UnmarkedOrLate ttl i j ((start false tasks).after (ms ++ ms')) := by
  intro h
  have hforwards : Forwards takeover := by
    unfold Forwards
    decide +kernel
  have hlate := h takeoverTasks 120000000000 takeoverMoves lateMoves ttl_takeoverTasks
    (sequential_takeover _) hforwards 2 1 parcel.id (by decide +kernel) (by decide +kernel)
    (by decide +kernel)
  have hmarked : (takeover.log 2).filterMap Exchange.marked? = [[parcel.id]] := by decide +kernel
  have hquick : ((takeover.log 2).filterMap Exchange.claim?).map Prod.fst = [fiveMinutes] := by
    decide +kernel
  have hslow : ((takeover.log 1).filterMap Exchange.claim?).map Prod.fst = [.epoch] := by
    decide +kernel
  -- the quick worker has marked the event, and the slow one claimed it five minutes before
  obtain hnone | ⟨c, hc, c', hc', stale, hshift, hlt⟩ := hlate
  · rw [← takeover, hmarked] at hnone
    cases hnone
  · have hc := List.mem_map_of_mem (f := Prod.fst) hc
    have hc' := List.mem_map_of_mem (f := Prod.fst) hc'
    rw [← takeover, hquick, List.mem_singleton] at hc
    rw [← takeover, hslow, List.mem_singleton] at hc'
    rw [hc'] at hshift
    rw [hc] at hlt
    have hearly : (Instant.epoch.shift (-120000000000)).all (fun s => ¬ fiveMinutes < s) = true :=
      by decide
    rw [hshift] at hearly
    exact absurd hlt (by simpa using hearly)

end Relay

end DoubleEntry
