import DoubleEntry.Proofs.Trace
import DoubleEntry.Relay.Worker
import Mathlib.Tactic.SplitIfs

/-!
# Traces of iterations

What an iteration of a worker has done at any moment, whatever it was answered.  It claims once,
with an instant that it was shown; it publishes the events that it was given, one after another and
each once, until one fails; and what it then marks as published are those events that it has
published, and what it gives up are the others (`Relay.Progress`).

## Main definitions

* `Exchange.reading?`, `Exchange.claim?`, `Exchange.message?`: what an exchange amounts to.
* `Log.claimed`, `Log.sent`, `Log.unsent`: the events of an iteration.
* `Relay.Progress`: what an iteration has done.

## Main results

* `Relay.always_runOnce`: every trace of an iteration is one of a `Relay.Progress`.
-/

namespace DoubleEntry

/-- What is published of an event. -/
def OutboxEvent.message (e : OutboxEvent) : String × String × Json :=
  (e.eventType, e.aggregateId.toText, e.payload)

namespace Exchange

/-- The instant that the clock showed. -/
def reading? : Exchange → Option Instant
  | ⟨.now, some t⟩ => some t
  | _ => none

/-- A claim that took effect: the instant that it was made with, and its events. -/
def claim? : Exchange → Option (Instant × List OutboxEvent)
  | ⟨.store (.claim _ _ now _), some (.ok events)⟩ => some (now, events)
  | _ => none

/-- A message whose publisher answered with success. -/
def message? : Exchange → Option (String × String × Json)
  | ⟨.publish eventType key payload, some (.ok _)⟩ => some (eventType, key, payload)
  | _ => none

theorem eq_of_claim? {x : Exchange} {now : Instant} {events : List OutboxEvent}
    (h : x.claim? = some (now, events)) :
    ∃ limit owner ttl, x = ⟨.store (.claim limit owner now ttl), some (.ok events)⟩ := by
  unfold claim? at h
  split at h
  · cases h
    exact ⟨_, _, _, rfl⟩
  · cases h

end Exchange

namespace Log

/-- The events that were claimed. -/
def claimed (es : List Exchange) : List OutboxEvent :=
  (es.filterMap Exchange.claim?).flatMap Prod.snd

/-- The messages that were published. -/
def messages (es : List Exchange) : List (String × String × Json) := es.filterMap Exchange.message?

/-- The events that were published: as many of the claimed ones as there are messages. -/
def sent (es : List Exchange) : List OutboxEvent := (claimed es).take (messages es).length

/-- The claimed events that were not published. -/
def unsent (es : List Exchange) : List OutboxEvent := (claimed es).drop (messages es).length

theorem messages_cons_of_none {e : Exchange} (h : e.message? = none) (es : List Exchange) :
    messages (e :: es) = messages es := by
  simp [messages, h]

theorem messages_publish (eventType key : String) (payload : Json) (u : Unit) (es : List Exchange) :
    messages (⟨.publish eventType key payload, some (.ok u)⟩ :: es) =
      (eventType, key, payload) :: messages es := rfl

end Log

namespace Relay

open Log

/-- What an iteration has done since it was given its events, of which it had published some. -/
structure Publishing (c : RelayConfig) (events : List OutboxEvent) (count : Nat)
    (es : List Exchange) : Prop where
  unclaiming : ∀ {limit owner now ttl a}, ⟨.store (.claim limit owner now ttl), a⟩ ∉ es
  messages : messages es = ((events.drop count).take (messages es).length).map OutboxEvent.message
  settles : ∀ {published now rest owner a}, ⟨.store (.settle published now rest owner), a⟩ ∈ es →
    owner = c.workerId ∧ published = (events.take (count + (Log.messages es).length)).map (·.id) ∧
      rest = (events.drop (count + (Log.messages es).length)).map (·.id)

/-- What an iteration has done. -/
structure Progress (c : RelayConfig) (es : List Exchange) : Prop where
  claims : ∀ {limit owner now ttl a}, ⟨.store (.claim limit owner now ttl), a⟩ ∈ es →
    owner = c.workerId ∧ ttl = Relay.ttl c ∧ ⟨.now, some now⟩ ∈ es
  once : (es.filterMap Exchange.claim?).length ≤ 1
  messages : messages es = (sent es).map OutboxEvent.message
  settles : ∀ {published now rest owner a}, ⟨.store (.settle published now rest owner), a⟩ ∈ es →
    owner = c.workerId ∧ published = (sent es).map (·.id) ∧ rest = (unsent es).map (·.id)

variable {c : RelayConfig} {events : List OutboxEvent} {count : Nat}

/-! ### After the claim -/

theorem publishing_nil : Publishing c events count [] :=
  ⟨nofun, rfl, nofun⟩

/-- An exchange that is neither a claim, a message nor a settlement changes nothing. -/
theorem Publishing.cons {e : Exchange} {es : List Exchange} (h : Publishing c events count es)
    (hm : e.message? = none) (hc : ∀ {limit owner now ttl a},
      e ≠ ⟨.store (.claim limit owner now ttl), a⟩)
    (hs : ∀ {published now rest owner a}, e ≠ ⟨.store (.settle published now rest owner), a⟩) :
    Publishing c events count (e :: es) where
  unclaiming hmem := by
    obtain he | hmem := List.mem_cons.1 hmem
    · exact hc he.symm
    · exact h.unclaiming hmem
  messages := by
    rw [messages_cons_of_none hm]
    exact h.messages
  settles hmem := by
    rw [messages_cons_of_none hm]
    obtain he | hmem := List.mem_cons.1 hmem
    · exact absurd he.symm hs
    · exact h.settles hmem

theorem always_settle (now : Instant) :
    (settle c events count now).Always fun es _ => Publishing c events count es := by
  have settled : ∀ a, Publishing c events count [⟨.store (.settle
      ((events.take count).map OutboxEvent.id) now ((events.drop count).map OutboxEvent.id)
      c.workerId), a⟩] := by
    intro a
    refine ⟨fun h => ?_, rfl, fun h => ?_⟩
    · cases List.mem_singleton.1 h
    · cases List.mem_singleton.1 h
      exact ⟨rfl, rfl, rfl⟩
  refine Program.always_ask publishing_nil (settled none) fun a => ?_
  rcases a with e | u
  · exact Program.always_done (settled _)
  · exact Program.always_done (settled _)

theorem always_finish :
    (finish c events count).Always fun es _ => Publishing c events count es := by
  unfold finish
  split_ifs
  -- nothing was published: the clock is not asked
  · exact always_settle _
  · have clock : ∀ a es, Publishing c events count es →
        Publishing c events count (⟨.now, a⟩ :: es) :=
      fun a es h => h.cons (by cases a <;> rfl) (by rintro _ _ _ _ _ ⟨⟩) (by rintro _ _ _ _ _ ⟨⟩)
    exact Program.always_ask publishing_nil (clock none [] publishing_nil) fun now =>
      (always_settle now).mono fun es _ => clock (some now) es

/-- **Events are published one after another**, in their order, until one fails. -/
theorem always_publishAll (queue : List OutboxEvent) (h : queue = events.drop count) :
    (publishAll c events count queue).Always fun es _ => Publishing c events count es := by
  induction queue generalizing count with
  | nil => exact always_finish
  | cons e queue ih =>
    have failed : ∀ a es,
        (Exchange.mk (.publish e.eventType e.aggregateId.toText e.payload) a).message? = none →
        Publishing c events count es → Publishing c events count
          (⟨.publish e.eventType e.aggregateId.toText e.payload, a⟩ :: es) :=
      fun a es ha h => h.cons ha (by rintro _ _ _ _ _ ⟨⟩) (by rintro _ _ _ _ _ ⟨⟩)
    refine Program.always_ask publishing_nil (failed none [] rfl publishing_nil) fun a => ?_
    cases a with
    | error err => exact always_finish.mono fun es _ => failed _ es rfl
    -- one more is published: it is the first that was left
    | ok u =>
      have hq : queue = events.drop (count + 1) := by
        rw [← List.tail_drop, ← h, List.tail_cons]
      refine (ih hq).mono fun es _ hp => ⟨fun hmem => ?_, ?_, fun hmem => ?_⟩
      · obtain he | hmem := List.mem_cons.1 hmem
        · cases he
        · exact hp.unclaiming hmem
      · rw [messages_publish, ← h, List.length_cons, List.take_succ_cons, List.map_cons]
        rw [hq, ← hp.messages]
        rfl
      · obtain he | hmem := List.mem_cons.1 hmem
        · cases he
        · rw [messages_publish, List.length_cons]
          have := hp.settles hmem
          rwa [Nat.add_right_comm, Nat.add_assoc] at this

theorem Publishing.claims_eq_nil {es : List Exchange} (h : Publishing c events count es) :
    es.filterMap Exchange.claim? = [] := by
  refine List.filterMap_eq_nil_iff.2 fun e he => ?_
  unfold Exchange.claim?
  split
  · exact absurd he h.unclaiming
  · rfl

/-! ### The whole iteration -/

theorem progress_nil : Progress c [] :=
  ⟨nofun, Nat.zero_le 1, rfl, nofun⟩

theorem progress_now (now : Option Instant) : Progress c [⟨.now, now⟩] := by
  refine ⟨fun h => ?_, Nat.zero_le 1, rfl, fun h => ?_⟩
  all_goals cases List.mem_singleton.1 h

theorem progress_of_unclaimed {now : Instant}
    {a : Option (Request.store (.claim c.batchSize c.workerId now (ttl c))).Answer}
    (h : (Exchange.mk (.store (.claim c.batchSize c.workerId now (ttl c))) a).claim? = none) :
    Progress c [⟨.now, some now⟩, ⟨.store (.claim c.batchSize c.workerId now (ttl c)), a⟩] := by
  refine ⟨fun hmem => ?_, ?_, rfl, fun hmem => ?_⟩
  · obtain he | hmem := List.mem_cons.1 hmem
    · cases he
    · cases List.mem_singleton.1 hmem
      exact ⟨rfl, rfl, List.mem_cons_self⟩
  · rw [List.filterMap_cons_none rfl, List.filterMap_cons_none h]
    exact Nat.zero_le 1
  · obtain he | hmem := List.mem_cons.1 hmem
    · cases he
    · cases List.mem_singleton.1 hmem

theorem Publishing.claims_eq {es : List Exchange} (h : Publishing c events count es)
    (now : Instant) : (⟨.now, some now⟩ ::
      ⟨.store (.claim c.batchSize c.workerId now (ttl c)), some (.ok events)⟩ :: es).filterMap
        Exchange.claim? = [(now, events)] :=
  congrArg (List.cons (now, events)) h.claims_eq_nil

theorem Publishing.claimed_eq {es : List Exchange} (h : Publishing c events count es)
    (now : Instant) : claimed (⟨.now, some now⟩ ::
      ⟨.store (.claim c.batchSize c.workerId now (ttl c)), some (.ok events)⟩ :: es) = events := by
  rw [claimed, h.claims_eq now]
  exact List.append_nil events

theorem progress_of_publishing {now : Instant} {es : List Exchange}
    (h : Publishing c events 0 es) : Progress c (⟨.now, some now⟩ ::
      ⟨.store (.claim c.batchSize c.workerId now (ttl c)), some (.ok events)⟩ :: es) := by
  have hclaims := h.claims_eq now
  have hclaimed := h.claimed_eq now
  have hmessages : Log.messages (⟨.now, some now⟩ ::
      ⟨.store (.claim c.batchSize c.workerId now (ttl c)), some (.ok events)⟩ :: es) =
        Log.messages es := rfl
  refine ⟨fun hmem => ?_, ?_, ?_, fun hmem => ?_⟩
  · obtain he | hmem := List.mem_cons.1 hmem
    · cases he
    obtain he | hmem := List.mem_cons.1 hmem
    · cases he
      exact ⟨rfl, rfl, List.mem_cons_self⟩
    · exact absurd hmem h.unclaiming
  · rw [hclaims]
    exact Nat.le_refl 1
  · rw [sent, hclaimed, hmessages]
    exact h.messages
  · obtain he | hmem := List.mem_cons.1 hmem
    · cases he
    obtain he | hmem := List.mem_cons.1 hmem
    · cases he
    · have hs := h.settles hmem
      rw [Nat.zero_add] at hs
      rwa [sent, unsent, hclaimed, hmessages]

/-- **Every trace of an iteration** is one of a `Progress`. -/
theorem always_runOnce (c : RelayConfig) : (runOnce c).Always fun es _ => Progress c es := by
  refine Program.always_ask progress_nil (progress_now none) fun now => ?_
  refine Program.always_ask (progress_now _) (progress_of_unclaimed rfl) fun a => ?_
  rcases a with e | (_ | ⟨e, events⟩)
  · exact Program.always_done (progress_of_unclaimed rfl)
  · exact Program.always_done (progress_of_publishing publishing_nil)
  · exact (always_publishAll (e :: events) rfl).mono fun es _ => progress_of_publishing

end Relay

end DoubleEntry
