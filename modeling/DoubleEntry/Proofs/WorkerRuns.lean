import DoubleEntry.Proofs.HeldRows
import DoubleEntry.Proofs.WorkerSignal

/-!
# What a worker leaves behind

A worker runs in its loop until it stops, over any store that can be reached, while others carry out
units of work that make no claim in its name, writes are made to fail, and the publisher answers in
any way (`Relay.runs_until_stopped`).  An event that it was given during the run is still held by it
at the end only if the settlement of the last iteration that was given it failed.

The invariant is about all that the iterations have exchanged, one after another: what the worker
holds of the events that it was given is settled by nothing since it was given it for the last time
(`Relay.Runner.Accounted`).

## Main definitions

* `Exchange.Gives`, `Exchange.Settles`: an event is given to the worker, and it is settled.
* `Relay.Open`: an event was given and not settled since.
* `Relay.Runner.Accounted`: the invariant.
* `Relay.RunsUntilStopped`: what may be relied on.
-/

namespace DoubleEntry

namespace Exchange

/-- The event was given to the worker. -/
def Gives (id : EventId) (ex : Exchange) : Prop :=
  ∃ now given, ex.claim? = some (now, given) ∧ id ∈ given.map (·.id)

/-- A settlement took effect that is about the event. -/
def Settles (id : EventId) (ex : Exchange) : Prop :=
  ∃ published now rest owner,
    ex = ⟨.store (.settle published now rest owner), some (.ok ())⟩ ∧ (id ∈ published ∨ id ∈ rest)

end Exchange

theorem exists_of_flatten_eq {α : Type} {ls : List (List α)} {before after : List α} {a : α}
    (h : ls.flatten = before ++ a :: after) : ∃ ls₁ l ls₂ before' after',
      ls = ls₁ ++ l :: ls₂ ∧ l = before' ++ a :: after' ∧ after = after' ++ ls₂.flatten := by
  obtain ⟨ls₁, ls₂, rfl, -, hlater⟩ | ⟨ls₁, before', b, after', ls₂, rfl, -, hafter⟩ :=
    List.flatten_eq_append_iff.1 h
  -- it is the first entry of a list
  · obtain ⟨nils, after', ls₃, rfl, -, hafter⟩ := List.flatten_eq_cons_iff.1 hlater.symm
    exact ⟨ls₁ ++ nils, a :: after', ls₃, [], after', (List.append_assoc ..).symm, rfl, hafter⟩
  · obtain ⟨rfl, rfl⟩ := List.cons_eq_cons.1 hafter
    exact ⟨ls₁, before' ++ a :: after', ls₂, before', after', rfl, rfl, rfl⟩

namespace Relay

variable {c : RelayConfig} {id : EventId}

/-- The event was given to the worker and not settled since. -/
def Open (id : EventId) (es : List Exchange) : Prop :=
  ∃ before ex after, es = before ++ ex :: after ∧ ex.Gives id ∧
    ∀ ex' ∈ after, ¬ ex'.Gives id ∧ ¬ ex'.Settles id

theorem open_of_gives {ex : Exchange} (es : List Exchange) (h : ex.Gives id) :
    Open id (es ++ [ex]) :=
  ⟨es, ex, [], rfl, h, List.forall_mem_nil _⟩

theorem Open.concat {es : List Exchange} (h : Open id es) {ex : Exchange}
    (hgives : ¬ ex.Gives id) (hsettles : ¬ ex.Settles id) : Open id (es ++ [ex]) := by
  obtain ⟨before, ex', after, rfl, hex, hafter⟩ := h
  refine ⟨before, ex', after ++ [ex], by simp, hex, fun ex'' hmem => ?_⟩
  obtain hmem | hmem := List.mem_append.1 hmem
  · exact hafter ex'' hmem
  · obtain rfl := List.mem_singleton.1 hmem
    exact ⟨hgives, hsettles⟩

/-! ### One request -/

/-- What a request does to the events that its worker holds. -/
structure Holds (owner : String) (ids : List EventId) (s s' : Store) (ex : Exchange) : Prop where
  keyed : ∃ more, s'.data.Keyed (ids ++ more)
  gives : ∀ id, ex.Gives id → id ∈ ids
  held : ∀ id ∈ ids, s'.data.IsHeld owner id →
    ¬ ex.Settles id ∧ (s.data.IsHeld owner id ∨ ex.Gives id)

/-- What neither gives nor settles events and leaves the store as it is. -/
theorem holds_aside {s : Store} {owner : String} {ids : List EventId} (hs : s.data.Keyed ids)
    {ex : Exchange} (hgives : ∀ id, ¬ ex.Gives id) (hsettles : ∀ id, ¬ ex.Settles id) :
    Holds owner ids s s ex :=
  ⟨⟨[], by rwa [List.append_nil]⟩, fun id h => absurd h (hgives id),
    fun id _ h => ⟨hsettles id, .inl h⟩⟩

theorem holds_claim {s : Store} {ids : List EventId} (hs : s.data.Keyed ids) (limit : Nat)
    (owner : String) (now : Instant) (ttl : Int) (w : Surroundings) :
    Holds owner ids s (w.answer (.store (.claim limit owner now ttl)) s).2
      ⟨.store (.claim limit owner now ttl),
        (w.answer (.store (.claim limit owner now ttl)) s).1⟩ := by
  refine ⟨Store.exists_keyed_write hs (StoreRequest.claim limit owner now ttl).work, ?_, ?_⟩
  · rintro id ⟨now', given, hclaim, hid⟩
    obtain ⟨limit', owner', ttl', heq⟩ := Exchange.eq_of_claim? hclaim
    obtain ⟨hrequest, hanswer⟩ := Exchange.mk.inj heq
    cases hrequest
    exact Store.mem_of_claim hs (Surroundings.eq_ok_of_ofOutcome (eq_of_heq hanswer)) hid
  · intro id _ hheld
    refine ⟨?_, (Store.isHeld_of_claim hheld).imp_right ?_⟩
    · rintro ⟨published, now', rest, owner', heq, -⟩
      cases (Exchange.mk.inj heq).1
    · rintro ⟨given, hok, hmem⟩
      have hanswer : (w.answer (.store (.claim limit owner now ttl)) s).1 = some (.ok given) :=
        congrArg Surroundings.ofOutcome hok
      refine ⟨now, given, ?_, hmem⟩
      rw [hanswer]
      rfl

theorem holds_settle {s : Store} {ids : List EventId} (hs : s.data.Keyed ids)
    (published : List EventId) (now : Instant) (rest : List EventId) (owner : String)
    (w : Surroundings) :
    Holds owner ids s (w.answer (.store (.settle published now rest owner)) s).2
      ⟨.store (.settle published now rest owner),
        (w.answer (.store (.settle published now rest owner)) s).1⟩ := by
  refine ⟨Store.exists_keyed_write hs (StoreRequest.settle published now rest owner).work, ?_, ?_⟩
  · rintro id ⟨now', given, hclaim, -⟩
    cases hclaim
  · intro id hid hheld
    refine ⟨?_, .inl (Store.isHeld_of_write hs hid (.settle trivial trivial) hheld)⟩
    rintro ⟨published', now', rest', owner', heq, hmem⟩
    obtain ⟨hrequest, hanswer⟩ := Exchange.mk.inj heq
    cases hrequest
    exact Store.not_isHeld_settle hs hid
      (Surroundings.eq_ok_of_ofOutcome (eq_of_heq hanswer)) hmem hheld

/-- **What a request of an iteration does**: its worker gets hold of what it is given, and of
nothing that it settles. -/
theorem holds_answer {s : Store} {ids : List EventId} (hs : s.data.Keyed ids) {r : Request}
    (hr : r.OfIteration c) (w : Surroundings) :
    Holds c.workerId ids s (w.answer r s).2 ⟨r, (w.answer r s).1⟩ := by
  cases r with
  | now =>
    refine holds_aside hs ?_ ?_
    · rintro id ⟨now, given, ⟨⟩, -⟩
    · rintro id ⟨published, now, rest, owner, ⟨⟩, -⟩
  | publish eventType key payload =>
    refine holds_aside hs ?_ ?_
    · rintro id ⟨now, given, ⟨⟩, -⟩
    · rintro id ⟨published, now, rest, owner, ⟨⟩, -⟩
  | store q =>
    cases q with
    | claim limit owner now ttl =>
      obtain rfl : owner = c.workerId := hr
      exact holds_claim hs limit c.workerId now ttl w
    | settle published now rest owner =>
      obtain rfl : owner = c.workerId := hr
      exact holds_settle hs published now rest c.workerId w
    | _ => exact hr.elim
  | _ => exact hr.elim

namespace Runner

/-- The move makes no claim in the name of the worker. -/
def Move.Spares (owner : String) : Move → Prop
  | write w | read w => w.Makes (Call.Spares owner)
  | _ => True

variable {x y : Runner}

/-! ### What is held -/

/-- The events of the store are known, and what the worker holds of those that it was given is
open. -/
structure Accounted (c : RelayConfig) (x : Runner) : Prop where
  traced : x.Traced c
  keyed : ∃ ids, x.store.data.Keyed ids ∧ (∀ ex ∈ x.history, ∀ id, ex.Gives id → id ∈ ids) ∧
    ∀ id ∈ ids, (∃ ex ∈ x.history, ex.Gives id) → x.store.data.IsHeld c.workerId id →
      Open id x.history

theorem Accounted.asks (h : x.Accounted c) {b : Backoff} {r : Request}
    {k : r.Answer → Program RunOutcome} (w : Surroundings) (working : x.loop = .working b)
    (rest : x.rest = .ask r k) (hy : y.Traced c) (hstore : y.store = (w.answer r x.store).2)
    (hhistory : y.history = x.history ++ [⟨r, (w.answer r x.store).1⟩]) : y.Accounted c := by
  obtain ⟨ids, hkeyed, hgiven, hopen⟩ := h.keyed
  have hrest := (asks_runOnce c).trace (h.traced.working b working)
  rw [rest] at hrest
  cases hrest with
  | ask hr _ =>
  obtain ⟨⟨more, hmore⟩, hgives, hheld⟩ := holds_answer hkeyed hr w
  have hgiven' : ∀ ex ∈ y.history, ∀ id, ex.Gives id → id ∈ ids := by
    intro ex hex id hid
    rw [hhistory] at hex
    obtain hex | hex := List.mem_append.1 hex
    · exact hgiven ex hex id hid
    · obtain rfl := List.mem_singleton.1 hex
      exact hgives id hid
  refine ⟨hy, ids ++ more, hstore ▸ hmore,
    fun ex hex id hid => List.mem_append_left more (hgiven' ex hex id hid), ?_⟩
  rintro id - ⟨ex, hex, hid⟩ hhold
  rw [hstore] at hhold
  obtain ⟨hsettles, hbefore⟩ := hheld id (hgiven' ex hex id hid) hhold
  rw [hhistory] at hex ⊢
  by_cases hnew : Exchange.Gives id ⟨r, (w.answer r x.store).1⟩
  · exact open_of_gives _ hnew
  -- it was given before, and held
  · have hex : ex ∈ x.history := by
      obtain hex | hex := List.mem_append.1 hex
      · exact hex
      · obtain rfl := List.mem_singleton.1 hex
        exact absurd hid hnew
    exact (hopen id (hgiven ex hex id hid) ⟨ex, hex, hid⟩
      (hbefore.resolve_right hnew)).concat hnew hsettles

theorem Accounted.others (h : x.Accounted c) (hy : y.Traced c) (hhistory : y.history = x.history)
    (hstore : ∀ ids, x.store.data.Keyed ids → (∃ more, y.store.data.Keyed (ids ++ more)) ∧
      ∀ id ∈ ids, y.store.data.IsHeld c.workerId id → x.store.data.IsHeld c.workerId id) :
    y.Accounted c := by
  obtain ⟨ids, hkeyed, hgiven, hopen⟩ := h.keyed
  obtain ⟨⟨more, hmore⟩, hheld⟩ := hstore ids hkeyed
  refine ⟨hy, ids ++ more, hmore, fun ex hex id hid => ?_, ?_⟩
  · rw [hhistory] at hex
    exact List.mem_append_left more (hgiven ex hex id hid)
  · rintro id - ⟨ex, hex, hid⟩ hhold
    rw [hhistory] at hex ⊢
    have hmem := hgiven ex hex id hid
    exact hopen id hmem ⟨ex, hex, hid⟩ (hheld id hmem hhold)

/-- **The accounts are kept** by every move that makes no claim in the name of the worker. -/
theorem Accounted.step {m : Move} (h : x.Accounted c) (hm : m.Spares c.workerId)
    (hstep : Step c x m y) : y.Accounted c := by
  have htraced := h.traced.step hstep
  have aside (hhistory : y.history = x.history) (hstore : y.store = x.store) : y.Accounted c :=
    h.others htraced hhistory fun ids hids =>
      ⟨⟨[], by rwa [List.append_nil, hstore]⟩, fun id _ hheld => hstore ▸ hheld⟩
  cases hstep with
  | others hf =>
    refine h.others htraced rfl fun ids hids => ?_
    cases m with
    | write w =>
      cases hf
      exact ⟨Store.exists_keyed_write hids w, fun id hid => Store.isHeld_of_write hids hid hm⟩
    | read w =>
      cases hf
      exact ⟨Store.exists_keyed_read hids w, fun id hid => Store.isHeld_of_read hids hid hm⟩
    | failNext =>
      cases hf
      rw [Store.data_failNext]
      exact ⟨⟨[], by rwa [List.append_nil]⟩, fun id _ hheld => hheld⟩
    | _ => cases hf
  | aside store loop _ log past _ =>
    exact aside (by simp only [history, logs, current, loop, log, past]) store
  | begins ready _ => exact aside (by simp [history, logs, current, ready]) rfl
  | asks w working rest =>
    exact h.asks w working rest htraced rfl (by simp [history, logs, current, working])
  | ends working _ => exact aside (by simp [history, logs, current, working]) rfl
  | wakes resting _ => exact aside (by simp [history, logs, current, resting]) rfl
  | stops between store stopped past _ =>
    refine aside ?_ store
    rw [history, history, logs, logs, current_eq_nil between, past, current, stopped]

end Runner

/-! ### Single iterations -/

/-- The iteration was given the event. -/
def Iteration.Gives (id : EventId) (it : Iteration) : Prop := ∃ ex ∈ it.log, ex.Gives id

/-- The settlement of the iteration failed. -/
def Iteration.FailsToSettle (it : Iteration) : Prop :=
  ∃ published now rest owner e,
    ⟨.store (.settle published now rest owner), some (.error e)⟩ ∈ it.log

/-- **An iteration that was given an event** and has ended has settled it since, unless its
settlement failed. -/
theorem exists_settles {it : Iteration} (h : (runOnce c).Trace it.log (.done it.outcome))
    {before after : List Exchange} {ex : Exchange} (hlog : it.log = before ++ ex :: after)
    (hex : ex.Gives id) : it.FailsToSettle ∨ ∃ ex' ∈ after, ex'.Settles id := by
  obtain ⟨now, given, hclaim, hid⟩ := hex
  have hclaimed : id ∈ (Log.claimed it.log).map (·.id) := by
    obtain ⟨e, he, rfl⟩ := List.mem_map.1 hid
    have hmem : (now, given) ∈ it.log.filterMap Exchange.claim? :=
      List.mem_filterMap.2 ⟨ex, hlog ▸ List.mem_append_right before List.mem_cons_self, hclaim⟩
    exact List.mem_map_of_mem (List.mem_flatMap.2 ⟨_, hmem, he⟩)
  obtain hnone | ⟨now', events, es, hshape, hgiven⟩ := always_runOnce_given c h
  · rw [hnone] at hclaimed
    cases hclaimed
  -- it was given the event by its only claim, after which it has settled
  · have hafter : after = es := hgiven.after_eq hclaim (hlog ▸ hshape)
    obtain ⟨published, t, rest, owner, a, hsettle⟩ := hgiven.settled _ rfl
    have hmem : ⟨.store (.settle published t rest owner), some a⟩ ∈ it.log := by
      rw [hshape]
      exact List.mem_cons_of_mem _ (List.mem_cons_of_mem _ hsettle)
    rcases a with e | u
    · exact .inl ⟨published, t, rest, owner, e, hmem⟩
    · obtain ⟨-, rfl, rfl⟩ := (always_runOnce c h).settles hmem
      refine .inr ⟨_, hafter ▸ hsettle, _, t, _, owner, rfl, ?_⟩
      rw [← List.mem_append, ← List.map_append, Log.sent, Log.unsent, List.take_append_drop]
      exact hclaimed

namespace Runner

variable {x : Runner}

/-- **What a worker leaves behind** that is in no iteration: it holds an event that it was given
only if the last iteration that was given it failed to settle it. -/
theorem Accounted.left (h : x.Accounted c) (hx : ∀ b, x.loop ≠ .working b)
    (hgiven : ∃ it ∈ x.past, it.Gives id) (hheld : x.store.data.IsHeld c.workerId id) :
    ∃ before it after, x.past = before ++ it :: after ∧ it.Gives id ∧ it.FailsToSettle ∧
      ∀ it' ∈ after, ¬ it'.Gives id := by
  have hhistory : x.history = (x.past.map Iteration.log).flatten := by
    rw [history, logs, current_eq_nil hx, List.append_nil]
  obtain ⟨ids, -, hknown, hopen⟩ := h.keyed
  obtain ⟨it₀, hit₀, ex₀, hex₀, hid₀⟩ := hgiven
  have hmem₀ : ex₀ ∈ x.history := by
    rw [hhistory]
    exact List.mem_flatten.2 ⟨it₀.log, List.mem_map_of_mem hit₀, hex₀⟩
  obtain ⟨before, ex, after, hsplit, hex, hafter⟩ :=
    hopen id (hknown ex₀ hmem₀ id hid₀) ⟨ex₀, hmem₀, hid₀⟩ hheld
  rw [hhistory] at hsplit
  obtain ⟨ls₁, l, ls₂, before', after', hlogs, hl, rfl⟩ := exists_of_flatten_eq hsplit
  obtain ⟨past₁, past₂, hpast, -, htail⟩ := List.map_eq_append_iff.1 hlogs
  obtain ⟨it, past₃, rfl, rfl, rfl⟩ := List.map_eq_cons_iff.1 htail
  have hit : it ∈ x.past := hpast ▸ List.mem_append_right past₁ List.mem_cons_self
  refine ⟨past₁, it, past₃, hpast, ⟨ex, ?_, hex⟩, ?_, fun it' hit' hgives => ?_⟩
  · rw [hl]
    exact List.mem_append_right before' List.mem_cons_self
  · refine (exists_settles (h.traced.past it hit) hl hex).resolve_right ?_
    rintro ⟨ex', hmem, hsettles⟩
    exact (hafter ex' (List.mem_append_left _ hmem)).2 hsettles
  · obtain ⟨ex', hmem, hid⟩ := hgives
    exact (hafter ex' (List.mem_append_right after'
      (List.mem_flatten.2 ⟨it'.log, List.mem_map_of_mem hit', hmem⟩))).1 hid

end Runner

/-! ### The whole run -/

/-- What may be relied on of a worker in its loop. -/
structure RunsUntilStopped (c : RelayConfig) (x : Runner) : Prop where
  /-- It rests as long as the outcomes ask for. -/
  delays : ∀ before it after, x.past = before ++ it :: after →
    it.delay = delayAfter c (before.map Iteration.outcome) it.outcome
  /-- An iteration asks for events once. -/
  once : ∀ es ∈ x.logs, (es.filter Exchange.asksForEvents).length ≤ 1
  /-- Once it shall stop, no iteration begins. -/
  stops : x.stop = true → ∀ ms, Runner.GoOn x.logs (x.after c ms).logs
  /-- No further claim is made then, once the iteration under way has made its own. -/
  claims : x.stop = true → (∀ es ∈ x.current, ∃ ex ∈ es, ex.asksForEvents = true) → ∀ ms,
    (x.after c ms).history.filter Exchange.asksForEvents =
      x.history.filter Exchange.asksForEvents
  /-- An iteration goes on to its end, whatever the signal says. -/
  stays : ∀ b, x.loop = .working b → ∀ m,
    (x.move c m).loop = .working b ∨ ∃ o, x.rest = .done o
  /-- It ends if the publisher answers, and has then settled its events. -/
  ends : ∀ b, x.loop = .working b → Log.claimed x.log ≠ [] → x.rest ≠ .crash →
    ∀ ws : List Surroundings, (∀ w ∈ ws, w.publisher.isSome) →
      (Log.claimed x.log).length + 2 ≤ ws.length →
        ∃ it, (x.after c (ws.map .turn ++ [.finish])).past = x.past ++ [it] ∧ Settled it.log
  /-- No iteration ends without having settled the events that it was given. -/
  settled : ∀ it ∈ x.past, Log.claimed it.log ≠ [] → Settled it.log
  /-- What it still holds when it has stopped it was given last by an iteration that failed to
  settle it. -/
  left : x.loop = .stopped → ∀ id, (∃ it ∈ x.past, it.Gives id) →
    x.store.data.IsHeld c.workerId id → ∃ before it after, x.past = before ++ it :: after ∧
      it.Gives id ∧ it.FailsToSettle ∧ ∀ it' ∈ after, ¬ it'.Gives id

/-- **A worker runs until it is stopped**: over any store that can be reached, whatever others do to
it that make no claim in its name, and whatever its partners answer. -/
theorem runs_until_stopped {s : Store} (h : s.Reached) (stop : Bool) {ms : List Runner.Move}
    (hms : ∀ m ∈ ms, m.Spares c.workerId) :
    RunsUntilStopped c ((Runner.start s stop).after c ms) := by
  have hstart : (Runner.start s stop).Accounted c := by
    obtain ⟨ids, hids⟩ := h.exists_keyed
    refine ⟨⟨nofun, List.forall_mem_nil _⟩, ids, hids, List.forall_mem_nil _, ?_⟩
    rintro id - ⟨ex, hex, -⟩
    cases hex
  have haccounted := Runner.after_induction hstart (fun _ _ _ hm hstep h => h.step hm hstep) hms
  generalize hx : (Runner.start s stop).after c ms = x at haccounted
  have htraced := haccounted.traced
  refine ⟨hx ▸ (Runner.paced_after s stop ms).past, fun es hes => ?_, Runner.goOn_after,
    htraced.claims, fun b hb m => ?_, fun b hb => htraced.ends hb, fun it hit hgiven => ?_,
    fun hstopped id => ?_⟩
  · obtain ⟨q, ht⟩ := htraced.of_logs hes
    exact always_runOnce_once c ht
  · exact (Runner.step_move x m).stays hb
  · exact settled_of_trace (htraced.past it hit) hgiven
  · exact haccounted.left (by rw [hstopped]; exact nofun)

/-- Everything is granted. -/
def granted : Runner.Move := .turn (.granting .epoch (.ofNat 0))

/-- The publisher refuses a message. -/
def refused : Runner.Move :=
  .turn { Surroundings.granting .epoch (.ofNat 0) with publisher := some (.error (.transport "")) }

/-- An event is inserted.  The publisher refuses it in a first iteration; in a second one it is
published while the worker is told to stop, and the settlement fails. -/
def lastIterationFails : List Runner.Move :=
  [.write (.insertAll [.event parcel]), .look, granted, granted, refused, granted, .finish, .wake,
    .look, granted, granted, granted, .signal, granted, .failNext, granted, .finish, .notice, .look]

/-- The worker has stopped, and still holds the event. -/
theorem last_iteration_leaves_held : Store.inMemory.Reached ∧
    (∀ m ∈ lastIterationFails, m.Spares "unknown") ∧
    let x := (Runner.start .inMemory false).after {} lastIterationFails
    x.loop = .stopped ∧ x.past.map Iteration.delay = [200000000, 400000000] ∧
      x.store.data.IsHeld "unknown" parcel.id ∧ RunsUntilStopped {} x := by
  have hmemory : "memory".startsWith "memory" = true := by decide +kernel
  have hopen : Store.open? "memory" none = .ok .inMemory := if_pos hmemory
  have hreached : Store.inMemory.Reached := .opened hopen
  have hspares : ∀ m ∈ lastIterationFails, m.Spares "unknown" := by
    refine List.forall_mem_cons.2 ⟨.call trivial fun _ => .done (), ?_⟩
    repeat' first
      | exact List.forall_mem_nil _
      | refine List.forall_mem_cons.2 ⟨trivial, ?_⟩
  exact ⟨hreached, hspares, by decide +kernel, by decide +kernel, by decide +kernel,
    runs_until_stopped hreached false hspares⟩

end Relay

end DoubleEntry
