import DoubleEntry.Proofs.OutboxClaims
import DoubleEntry.Proofs.RelayTrace

/-!
# Iterations from beginning to end

An iteration of a worker that nobody disturbs is followed over a store in memory, whatever the rows
of its outbox look like, whatever the publisher answers and whichever writes are made to fail.  What
it claims, what it publishes and what it marks agree on one number: how many of the events that it
was given went out before the first that was refused (`Relay.runOnce_iterates`).

## Main definitions

* `Relay.Setting`: what a worker meets. `Relay.Setting.world`: how it is answered.
* `Relay.SendsUpTo`: messages go out one after another, up to the first that is refused.
* `Memory.relayed`: the data after the end of an iteration.
* `Relay.Setting.Iterates`: what was exchanged in an iteration, its result, and the data after it.
-/

namespace DoubleEntry

/-- The exchange in which the message of an event was answered. -/
def OutboxEvent.offered (e : OutboxEvent) (a : Except PublishError Unit) : Exchange :=
  ⟨.publish e.eventType e.aggregateId.toText e.payload, some a⟩

/-- What a write is answered that was made to fail. -/
def StoreError.commitFailed : StoreError := .transaction "commit failed"

/-- The result of an iteration in which so many of the claimed events went out, and were marked. -/
def RunOutcome.ofCount (count claimed : Nat) : RunOutcome :=
  if count = claimed then .published count else .partly count (claimed - count)

namespace Memory

variable {m m₁ : Memory} {limit : Nat} {owner : String} {now : Instant} {ttl : Int}
  {given sent rest : List OutboxEvent}

/-- The data in which some events were published and the claims on others given up. -/
def relayed (sent rest : List OutboxEvent) (now : Instant) (m : Memory) : Memory :=
  { m with outbox := m.outbox.map fun e =>
      if (sent.map (·.id)).contains e.id then publishedAt now e
      else if (rest.map (·.id)).contains e.id then unclaimed e else e }

theorem exists_grant (hids : (m.outbox.map (·.id)).Nodup) (limit : Nat) (owner : String)
    (h : (now.shift (-ttl)).isSome) : ∃ (given : List OutboxEvent) (m₁ : Memory),
      m.call (.claim limit owner now ttl) = (.ok given, m₁) ∧
        m.Grant limit owner now ttl given m₁ := by
  have hsound : Sound { Memory.empty with outbox := m.outbox } :=
    ⟨List.nodup_nil, List.nodup_nil, List.nodup_nil, hids, List.nodup_nil⟩
  obtain ⟨given, m', hcall, hgrant⟩ := grant_of_call hsound limit owner h
  have hbatch : batch limit now ttl { Memory.empty with outbox := m.outbox } =
    m.batch limit now ttl := rfl
  rw [call_claim, hbatch] at hcall
  cases hb : m.batch limit now ttl with
  | error e => rw [hb] at hcall; cases hcall
  | ok es =>
    rw [hb] at hcall
    cases hcall
    have hothers : (m.update (es.map (·.id)) (claimed owner now)) = { m with
        outbox := m.outbox.map fun e =>
          if ((es.map (claimed owner now)).map (·.id)).contains e.id then claimed owner now e
          else e } := by
      rw [ids_claimed]
      rfl
    exact ⟨es.map (claimed owner now), m.update (es.map (·.id)) (claimed owner now),
      by rw [call_claim, hb], hgrant.length_le, hgrant.nodup, hgrant.owned, hgrant.oldest, hothers⟩

theorem Grant.unpublished (h : m.Grant limit owner now ttl given m₁)
    (hids : (m.outbox.map (·.id)).Nodup) {e : OutboxEvent} (he : e ∈ m.outbox)
    (hgiven : e.id ∈ given.map (·.id)) : e.published = false := by
  obtain ⟨chosen, rest, rfl, hperm, -⟩ := h.oldest
  rw [ids_claimed] at hgiven
  obtain ⟨e', he', hid⟩ := List.mem_map.1 hgiven
  obtain ⟨hmem, hfree⟩ := List.mem_filter.1 (hperm.subset (List.mem_append_left rest he'))
  obtain rfl : e' = e := List.inj_on_of_nodup_map hids hmem he hid
  exact (OutboxEvent.isClaimable_eq_some_true (of_decide_eq_true hfree)).1

/-- **The end of an iteration**, from the data before its claim. -/
theorem Grant.settled_eq (h : m.Grant limit owner now ttl (sent ++ rest) m₁)
    (hids : (m.outbox.map (·.id)).Nodup) (t : Instant) :
    settled (sent.map (·.id)) t (rest.map (·.id)) owner m₁ = m.relayed sent rest t := by
  have hnodup := h.nodup
  rw [List.map_append] at hnodup
  have hdisjoint := (List.nodup_append.1 hnodup).2.2
  rw [h.others, settled, relayed]
  simp only [update, List.map_map, List.map_append]
  congr 1
  refine List.map_congr_left fun e he => ?_
  simp only [Function.comp_apply, List.contains_iff_mem, List.mem_append]
  by_cases hsent : e.id ∈ sent.map (·.id)
  · have hrest : e.id ∉ rest.map (·.id) := fun hrest => hdisjoint _ hsent _ hrest rfl
    simp only [hsent, hrest, true_or, if_true, if_false, publishedAt, unclaimed, claimed]
  · by_cases hrest : e.id ∈ rest.map (·.id)
    · have hpublished := h.unpublished hids he
        (by rw [List.map_append]; exact List.mem_append_right _ hrest)
      have hheld : isHeldBy owner (claimed owner now e) = true := by
        simp [isHeldBy, claimed, hpublished]
      have hid : (claimed owner now e).id = e.id := rfl
      simp only [hid, hsent, hrest, hheld, or_true, if_true, if_false]
      rfl
    · simp only [hsent, hrest, or_self, if_false]

end Memory

namespace Relay

/-! ### What a worker meets -/

/-- What a worker meets, by what has been exchanged so far: how the publisher answers, what the
clock shows, and whether the next write is made to fail. -/
structure Setting where
  publisher : List Exchange → (topic key : String) → Json → Except PublishError Unit
  clock : List Exchange → Instant
  fails : List Exchange → Bool

/-- How a worker is answered that is the only one to write; what is exchanged is noted.  It asks
nothing else. -/
def Setting.world (w : Setting) :
    (r : Request) → Store × List Exchange → Option r.Answer × (Store × List Exchange)
  | .store q, (s, es) =>
    let s := if w.fails es then s.failNext else s
    let a := Surroundings.ofOutcome (s.serve q).1
    (a, ((s.serve q).2, es ++ [⟨.store q, a⟩]))
  | .publish topic key payload, (s, es) =>
    let a := w.publisher es topic key payload
    (some a, (s, es ++ [⟨.publish topic key payload, some a⟩]))
  | .now, (s, es) => (some (w.clock es), (s, es ++ [⟨.now, some (w.clock es)⟩]))
  | .accounts _, x | .audit _, x | .freshId, x => (none, x)

/-- The messages of some events go out one after another, up to the first that is refused: how many
do, and what is exchanged. -/
inductive SendsUpTo : List OutboxEvent → Nat → List Exchange → Prop
  | done : SendsUpTo [] 0 []
  | refused (e : OutboxEvent) (events : List OutboxEvent) (err : PublishError) :
    SendsUpTo (e :: events) 0 [e.offered (.error err)]
  | sent {e : OutboxEvent} {events : List OutboxEvent} {count : Nat} {es : List Exchange}
    (rest : SendsUpTo events count es) :
    SendsUpTo (e :: events) (count + 1) (e.offered (.ok ()) :: es)

theorem SendsUpTo.le_length {events : List OutboxEvent} {count : Nat} {es : List Exchange}
    (h : SendsUpTo events count es) : count ≤ events.length := by
  induction h with
  | done => exact Nat.le_refl 0
  | refused e events err => exact Nat.zero_le _
  | sent _ ih => exact Nat.succ_le_succ ih

/-! ### The parts of an iteration -/

namespace Setting

variable (w : Setting) (c : RelayConfig) {m m' : Memory} {f : Bool} {es : List Exchange}
  {given : List OutboxEvent} {count : Nat}

theorem run_write {q : StoreRequest} {a : q.Value} (hq : q.writes = true)
    (hrun : q.work.run m = (.ok a, m')) (k : Except StoreError q.Value → Program RunOutcome) :
    (Program.ask (.store q) k).run w.world (.ofMemory m f, es) =
      if f || w.fails es then (k (.error .commitFailed)).run w.world
        (.ofMemory m false, es ++ [⟨.store q, some (.error .commitFailed)⟩])
      else (k (.ok a)).run w.world (.ofMemory m' false, es ++ [⟨.store q, some (.ok a)⟩]) := by
  have harmed : (if w.fails es then (Store.ofMemory m f).failNext else .ofMemory m f) =
      .ofMemory m (f || w.fails es) := by
    cases w.fails es <;> simp
  have hserve := Store.serve_ofMemory q m (f || w.fails es)
  simp only [hq, hrun, if_true] at hserve
  split_ifs with hfails
  · rw [hfails, if_pos rfl] at hserve
    refine Program.run_ask ?_
    simp only [world, harmed, hfails, hserve]
    rfl
  · rw [Bool.eq_false_of_not_eq_true hfails, if_neg Bool.false_ne_true] at hserve
    refine Program.run_ask ?_
    simp only [world, harmed, Bool.eq_false_of_not_eq_true hfails, hserve]
    rfl

/-- **Events are published one after another**, up to the first that is refused; then the iteration
comes to its end. -/
theorem run_publishAll (given queue : List OutboxEvent) (count : Nat) (s : Store)
    (es : List Exchange) : ∃ more sent, SendsUpTo queue more sent ∧
      (publishAll c given count queue).run w.world (s, es) =
        (finish c given (count + more)).run w.world (s, es ++ sent) := by
  induction queue generalizing count es with
  | nil => exact ⟨0, [], .done, by rw [List.append_nil]; rfl⟩
  | cons e queue ih =>
    obtain ⟨a, ha⟩ : ∃ a, a = w.publisher es e.eventType e.aggregateId.toText e.payload := ⟨_, rfl⟩
    have hworld : w.world (.publish e.eventType e.aggregateId.toText e.payload) (s, es) =
        (some a, (s, es ++ [e.offered a])) := by
      rw [ha]
      rfl
    rw [publishAll, Program.run_ask hworld]
    cases a with
    | error err => exact ⟨0, _, .refused e queue err, rfl⟩
    | ok u =>
      obtain ⟨more, sent, hsent, hrun⟩ := ih (count + 1) (es ++ [e.offered (.ok u)])
      refine ⟨more + 1, _, .sent hsent, ?_⟩
      rw [hrun, List.append_assoc, Nat.add_assoc, Nat.add_comm 1]
      rfl

/-- What was exchanged when an iteration is about to mark so many events: the clock is read if there
are any. -/
def beforeMark (count : Nat) (es : List Exchange) : List Exchange :=
  if count = 0 then es else es ++ [⟨.now, some (w.clock es)⟩]

/-- The time at which they are marked. -/
def markTime (count : Nat) (es : List Exchange) : Instant :=
  if count = 0 then .epoch else w.clock es

theorem run_finish (s : Store) : (finish c given count).run w.world (s, es) =
    (settle c given count (w.markTime count es)).run w.world (s, w.beforeMark count es) := by
  rw [finish, markTime, beforeMark]
  split_ifs
  · rfl
  · exact Program.run_ask rfl

/-! ### The whole iteration -/

/-- What is exchanged up to the answer to the claim. -/
def opening (a : Except StoreError (List OutboxEvent)) : List Exchange :=
  [⟨.now, some (w.clock [])⟩,
    ⟨.store (.claim c.batchSize c.workerId (w.clock []) (ttl c)), some a⟩]

/-- The claim is made to fail, before the iteration or after the clock was read. -/
def claimFails (f : Bool) : Bool := f || w.fails [⟨.now, some (w.clock [])⟩]

/-- The write that marks so many of the claimed events and gives up the claims on the others. -/
def marking (given : List OutboxEvent) (count : Nat) (t : Instant) : StoreRequest :=
  .settle ((given.take count).map OutboxEvent.id) t ((given.drop count).map OutboxEvent.id)
    c.workerId

/-- What was exchanged in an iteration whose claim gives these events and leaves these data, its
result, and the data after it. -/
inductive Iterates (m : Memory) (f : Bool) (given : List OutboxEvent) (claimed : Memory) :
    List Exchange → RunOutcome → Memory → Prop
  /-- The claim fails: nothing is published, and the data are as they were. -/
  | unclaimed (fails : w.claimFails f = true) : Iterates m f given claimed
    (w.opening c (.error .commitFailed)) (.failed ("claim: " ++ StoreError.commitFailed.message)) m
  /-- There is nothing to claim. -/
  | idle (claims : w.claimFails f = false) (free : given = []) : Iterates m f given claimed
    (w.opening c (.ok [])) .idle m
  /-- Events go out, and the marking fails: the data are as after the claim. -/
  | unmarked {count : Nat} {sent es : List Exchange} (claims : w.claimFails f = false)
    (free : given ≠ []) (sends : SendsUpTo given count sent)
    (exchanged : es = w.opening c (.ok given) ++ sent)
    (fails : w.fails (w.beforeMark count es) = true) : Iterates m f given claimed
    (w.beforeMark count es ++
      [⟨.store (marking c given count (w.markTime count es)), some (.error .commitFailed)⟩])
    (.failed ("mark published: " ++ StoreError.commitFailed.message)) claimed
  /-- Events go out, and those are marked; the claims on the others are given up. -/
  | marked {count : Nat} {sent es : List Exchange} (claims : w.claimFails f = false)
    (free : given ≠ []) (sends : SendsUpTo given count sent)
    (exchanged : es = w.opening c (.ok given) ++ sent)
    (marks : w.fails (w.beforeMark count es) = false) : Iterates m f given claimed
    (w.beforeMark count es ++
      [⟨.store (marking c given count (w.markTime count es)), some (.ok ())⟩])
    (.ofCount count given.length)
    (m.relayed (given.take count) (given.drop count) (w.markTime count es))

variable {w c}

theorem run_runOnce {claimed : Memory}
    (hclaim : (StoreRequest.claim c.batchSize c.workerId (w.clock []) (ttl c)).work.run m =
      (.ok given, claimed)) :
    (runOnce c).run w.world (.ofMemory m f, []) =
      if w.claimFails f then
        (some (.failed ("claim: " ++ StoreError.commitFailed.message)),
          (.ofMemory m false, w.opening c (.error .commitFailed)))
      else if given = [] then (some .idle, (.ofMemory claimed false, w.opening c (.ok given)))
      else (publishAll c given 0 given).run w.world
        (.ofMemory claimed false, w.opening c (.ok given)) := by
  have hread : w.world .now (.ofMemory m f, []) =
      (some (w.clock []), (.ofMemory m f, [⟨.now, some (w.clock [])⟩])) := rfl
  refine (Program.run_ask hread).trans ((w.run_write rfl hclaim _).trans ?_)
  rw [claimFails]
  congr 1
  cases given <;> rfl

theorem run_settle {count : Nat} {t : Instant} (hle : count ≤ given.length)
    (hmark : (marking c given count t).work.run m = (.ok (), m')) :
    (settle c given count t).run w.world (.ofMemory m false, es) =
      if w.fails es then
        (some (.failed ("mark published: " ++ StoreError.commitFailed.message)),
          (.ofMemory m false, es ++
            [⟨.store (marking c given count t), some (.error .commitFailed)⟩]))
      else
        (some (.ofCount count given.length),
          (.ofMemory m' false, es ++ [⟨.store (marking c given count t), some (.ok ())⟩])) := by
  have hrest : ((given.drop count).map OutboxEvent.id).isEmpty = true ↔ count = given.length := by
    rw [List.isEmpty_iff, List.map_eq_nil_iff, List.drop_eq_nil_iff]
    omega
  have houtcome : (if ((given.drop count).map OutboxEvent.id).isEmpty then
      RunOutcome.published count
      else .partly count ((given.drop count).map OutboxEvent.id).length) =
        .ofCount count given.length := by
    simp only [hrest, List.length_map, List.length_drop, RunOutcome.ofCount]
  rw [← houtcome]
  exact w.run_write rfl hmark _

theorem iterates_publishAll {claimed : Memory} (hids : (m.outbox.map (·.id)).Nodup)
    (hgrant : m.Grant c.batchSize c.workerId (w.clock []) (ttl c) given claimed)
    (hclaims : w.claimFails f = false) (hgiven : given ≠ []) : ∃ es outcome m',
      (publishAll c given 0 given).run w.world
        (.ofMemory claimed false, w.opening c (.ok given)) =
          (some outcome, (.ofMemory m' false, es)) ∧
        w.Iterates c m f given claimed es outcome m' := by
  obtain ⟨count, sent, hsends, hpublish⟩ :=
    w.run_publishAll c given given 0 (.ofMemory claimed false) (w.opening c (.ok given))
  obtain ⟨es, hes⟩ : ∃ es, es = w.opening c (.ok given) ++ sent := ⟨_, rfl⟩
  have hmark : (marking c given count (w.markTime count es)).work.run claimed =
      (.ok (), m.relayed (given.take count) (given.drop count) (w.markTime count es)) := by
    rw [← List.take_append_drop count given] at hgrant
    rw [← hgrant.settled_eq hids]
    exact Memory.run_settle _ _ _ _ _
  rw [hpublish, Nat.zero_add, ← hes, run_finish, run_settle hsends.le_length hmark]
  split_ifs with hfails
  · exact ⟨_, _, _, rfl, .unmarked hclaims hgiven hsends hes hfails⟩
  · exact ⟨_, _, _, rfl, .marked hclaims hgiven hsends hes (Bool.eq_false_of_not_eq_true hfails)⟩

end Setting

/-- **An iteration from beginning to end.**  Over any data whose events have distinct identifiers,
and whatever the worker meets, it claims the oldest free events, which are not published yet, sends
their messages up to the first that is refused, and marks those that went out. -/
theorem runOnce_iterates (w : Setting) (c : RelayConfig) (m : Memory) (f : Bool)
    (hids : (m.outbox.map (·.id)).Nodup) (hnow : ((w.clock []).shift (-(ttl c))).isSome) :
    ∃ (given : List OutboxEvent) (claimed : Memory) (es : List Exchange) (outcome : RunOutcome)
      (m' : Memory),
      m.call (.claim c.batchSize c.workerId (w.clock []) (ttl c)) = (.ok given, claimed) ∧
      m.Grant c.batchSize c.workerId (w.clock []) (ttl c) given claimed ∧
      (∀ e ∈ m.outbox, e.id ∈ given.map (·.id) → e.published = false) ∧
      (runOnce c).run w.world (.ofMemory m f, []) = (some outcome, (.ofMemory m' false, es)) ∧
      w.Iterates c m f given claimed es outcome m' := by
  obtain ⟨given, claimed, hcall, hgrant⟩ :=
    Memory.exists_grant hids c.batchSize c.workerId hnow
  have hclaim : (StoreRequest.claim c.batchSize c.workerId (w.clock []) (ttl c)).work.run m =
      (.ok given, claimed) := (Memory.run_single _ m).trans hcall
  suffices h : ∃ es outcome m', (runOnce c).run w.world (.ofMemory m f, []) =
      (some outcome, (.ofMemory m' false, es)) ∧ w.Iterates c m f given claimed es outcome m' by
    obtain ⟨es, outcome, m', hend, hiterates⟩ := h
    exact ⟨given, claimed, es, outcome, m', hcall, hgrant, fun e => hgrant.unpublished hids, hend,
      hiterates⟩
  rw [Setting.run_runOnce hclaim]
  cases hfails : w.claimFails f with
  | true => exact ⟨_, _, m, rfl, .unclaimed hfails⟩
  | false =>
    rw [if_neg Bool.false_ne_true]
    by_cases hgiven : given = []
    · -- a claim of nothing leaves the data as they are
      have hsame : claimed = m := by
        rw [hgrant.others, hgiven]
        simp
      rw [if_pos hgiven, hsame, hgiven]
      exact ⟨_, _, m, rfl, .idle hfails rfl⟩
    · rw [if_neg hgiven]
      exact Setting.iterates_publishAll hids hgrant hfails hgiven

/-- A publisher that takes two messages and no more, five minutes after the epoch. -/
def Setting.twoMessages : Setting where
  publisher es _ _ _ := if (Log.messages es).length < 2 then .ok () else .error (.transport "down")
  clock _ := fiveMinutes
  fails _ := false

/-- An outbox with a stale claim of another worker, with a published event, and with two that nobody
has claimed. -/
def fourEvents : Memory :=
  { Memory.empty with outbox := [Memory.claimed "slow" .epoch parcel,
      Memory.publishedAt .epoch { parcel with id := .ofNat 8 }, { parcel with id := .ofNat 9 },
      { parcel with id := .ofNat 10 }] }

/-- The free ones of the four events, as they are given to a worker. -/
def givenOfFour : List OutboxEvent :=
  [Memory.claimed "slow" .epoch parcel, { parcel with id := .ofNat 9 },
    { parcel with id := .ofNat 10 }].map (Memory.claimed "unknown" fiveMinutes)

theorem claim_fourEvents : fourEvents.call (.claim 50 "unknown" fiveMinutes 120000000000) =
    (.ok givenOfFour, fourEvents.update [.ofNat 7, .ofNat 9, .ofNat 10]
      (Memory.claimed "unknown" fiveMinutes)) := by
  have hbatch : fourEvents.batch 50 fiveMinutes 120000000000 =
      .ok [Memory.claimed "slow" .epoch parcel, { parcel with id := .ofNat 9 },
        { parcel with id := .ofNat 10 }] :=
    congrArg (fun es => Except.ok (List.take 50 es)) (List.mergeSort_of_pairwise (by decide))
  rw [Memory.call_claim, hbatch]
  rfl

/-- The event with the stale claim goes out and the first of the free ones; the message of the last
one is refused, and the claim on it is given up. -/
theorem iterates_fourEvents : (fourEvents.outbox.map (·.id)).Nodup ∧
    ((Setting.twoMessages.clock []).shift (-(ttl {}))).isSome ∧
    ∃ (claimed : Memory) (es : List Exchange) (m' : Memory),
      (runOnce {}).run Setting.twoMessages.world (.ofMemory fourEvents false, []) =
        (some (.partly 2 1), (.ofMemory m' false, es)) ∧
      (Log.sent es).map (·.id) = [.ofNat 7, .ofNat 9] ∧
      (Log.unsent es).map (·.id) = [.ofNat 10] ∧
      m'.outbox.map (fun e => (e.published, e.processing)) =
        [(true, false), (true, false), (true, false), (false, false)] ∧
      Setting.twoMessages.Iterates {} fourEvents false givenOfFour claimed es (.partly 2 1) m' := by
  have hids : (fourEvents.outbox.map (·.id)).Nodup := by decide
  have hnow : ((Setting.twoMessages.clock []).shift (-(ttl {}))).isSome := by decide
  obtain ⟨given, claimed, es, outcome, m', hcall, -, -, hrun, hiterates⟩ :=
    runOnce_iterates Setting.twoMessages {} fourEvents false hids hnow
  obtain ⟨hgiven, rfl⟩ := Prod.mk.inj (hcall.symm.trans claim_fourEvents)
  obtain rfl := Except.ok.inj hgiven
  have hsome : givenOfFour ≠ [] := List.cons_ne_nil _ _
  have hstart := Setting.run_runOnce (f := false) ((Memory.run_single _ _).trans hcall)
  rw [if_neg (by decide), if_neg hsome, hrun] at hstart
  -- from the claim on the run is computed
  have hend : (fun r : Option RunOutcome × Store × List Exchange =>
      (r.1, (Log.sent r.2.2).map (·.id), (Log.unsent r.2.2).map (·.id),
        r.2.1.memory.outbox.map fun e => (e.published, e.processing)))
        (some outcome, (.ofMemory m' false, es)) =
      (some (.partly 2 1), [.ofNat 7, .ofNat 9], [.ofNat 10],
        [(true, false), (true, false), (true, false), (false, false)]) := by
    rw [hstart]
    decide +kernel
  simp only [Prod.mk.injEq, Option.some.injEq] at hend
  obtain ⟨rfl, hsent, hunsent, hrows⟩ := hend
  exact ⟨hids, hnow, _, es, m', hrun, hsent, hunsent, hrows, hiterates⟩

end Relay

end DoubleEntry
