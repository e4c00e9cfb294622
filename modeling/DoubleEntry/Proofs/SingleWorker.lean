import DoubleEntry.Proofs.OutboxQueue
import DoubleEntry.Proofs.Sending
import Mathlib.Data.Fintype.Basic

/-!
# Delivery in order

A single worker serves an outbox whose writes do not fail: its iterations follow one another, each
begun when the one before has ended, while events are inserted at any time.  What it publishes is
then at every moment the beginning of the events in the order of their insertion, each once; between
two iterations these are the events that are marked; and an iteration in which no message is refused
publishes as many of the events that wait at its claim as fit into a batch.

The invariant follows the iteration that is under way from request to request
(`Relay.Busy`): how many of the events it has claimed it has published, and where the parts of the
outbox lie.

## Main definitions

* `Relay.Rests`, `Relay.Orderly`: iterations follow one another, and no write is made to fail.
* `Relay.delivered`: all that was published.
* `Relay.Busy`, `Relay.InOrder`: the invariant.

## Main results

* `Relay.Busy.step`: what an iteration that is under way does next.
* `Relay.inOrder`: the invariant holds at every moment of a run.
-/

namespace DoubleEntry

/-- The program has given its result. -/
def Program.ended {α : Type} : Program α → Bool
  | .done _ => true
  | _ => false

/-- A message that the publisher refused. -/
def Exchange.refused : Exchange → Bool
  | ⟨.publish _ _ _, some (.error _)⟩ => true
  | _ => false

namespace Pool

variable {ι α : Type} [DecidableEq ι] {x : Pool ι α}

theorem move_turn {i : ι} {r : Request} {k : r.Answer → Program α} (h : x.rest i = .ask r k)
    (w : Surroundings) : x.move (.turn i w) = ⟨(w.answer r x.store).2,
      Function.update x.rest i (Program.resume k (w.answer r x.store).1),
      x.history ++ [⟨i, r, (w.answer r x.store).1⟩]⟩ := by
  simp [move, turn, h]

theorem of_ne {i j : ι} (h : j ≠ i) (w : Surroundings) :
    (x.move (.turn i w)).rest j = x.rest j ∧ (x.move (.turn i w)).log j = x.log j := by
  obtain hx | ⟨r, k, -, hx⟩ := x.turn_cases i w
  · rw [move, hx]
    exact ⟨rfl, rfl⟩
  · rw [move, hx]
    simp [log, h, Ne.symm h]

end Pool

namespace Relay

open Log

variable {ι : Type} [DecidableEq ι]

/-- All that was published. -/
def delivered (x : Workers ι) : List (String × String × Json) :=
  x.history.filterMap fun e => e.exchange.message?

/-- The task is not an iteration that is under way. -/
def Rests (tasks : ι → Task) (x : Workers ι) (i : ι) : Prop :=
  (tasks i).worker?.isSome → (x.log i).isEmpty ∨ (x.rest i).ended

instance (tasks : ι → Task) (x : Workers ι) (i : ι) : Decidable (Rests tasks x i) :=
  inferInstanceAs (Decidable (_ → _ ∨ _))

/-- The move makes no write fail, the publisher answers, and an iteration takes a turn only if no
other one is under way. -/
def Admits (tasks : ι → Task) (x : Workers ι) : Move ι → Prop
  | .failNext => False
  | .turn i w => w.publisher.isSome ∧
    ((tasks i).worker?.isSome → ∀ j, j ≠ i → Rests tasks x j)

/-- Iterations follow one another, the publisher answers, and no write is made to fail. -/
def Orderly (tasks : ι → Task) (x : Workers ι) : List (Move ι) → Prop
  | [] => True
  | mv :: ms => Admits tasks x mv ∧ Orderly tasks (x.move mv) ms

instance [Fintype ι] (tasks : ι → Task) (x : Workers ι) : (mv : Move ι) →
    Decidable (Admits tasks x mv)
  | .failNext => isFalse id
  | .turn _ _ => inferInstanceAs (Decidable (_ ∧ (_ → _)))

instance instDecidableOrderly [Fintype ι] (tasks : ι → Task) :
    (x : Workers ι) → (ms : List (Move ι)) → Decidable (Orderly tasks x ms)
  | _, [] => isTrue trivial
  | x, mv :: ms =>
    have := instDecidableOrderly tasks (x.move mv) ms
    inferInstanceAs (Decidable (_ ∧ _))

theorem orderly_append {tasks : ι → Task} {x : Workers ι} {ms ms' : List (Move ι)} :
    Orderly tasks x (ms ++ ms') ↔ Orderly tasks x ms ∧ Orderly tasks (x.after ms) ms' := by
  induction ms generalizing x with
  | nil => simp [Orderly]
  | cons mv ms ih => simp [Orderly, ih, and_assoc]

/-! ### The iteration that is under way -/

/-- What is left of an iteration that has read the clock. -/
def claiming (c : RelayConfig) (now : Instant) : Program RunOutcome :=
  .ask (.store (.claim c.batchSize c.workerId now (ttl c))) fun claimed =>
  match claimed with
  | .error e => .done (.failed ("claim: " ++ e.message))
  | .ok [] => .done .idle
  | .ok events => publishAll c events 0 events

/-- Where an iteration is that is under way when so many messages were published: what is left of
it, and the parts of the outbox. -/
inductive Busy (c : RelayConfig) (outbox : List OutboxEvent) (count : Nat) :
    Program (Option RunOutcome) → Prop
  /-- It is about to claim. -/
  | claiming {done waiting : List OutboxEvent} {now : Instant}
    (laid : Laid c.workerId done [] waiting outbox) (count_eq : count = done.length) :
    Busy c outbox count ((claiming c now).map some)
  /-- It publishes the events that it has claimed. -/
  | publishing {done held waiting : List OutboxEvent} {p : Nat}
    (laid : Laid c.workerId done held waiting outbox) (lt : p < held.length)
    (count_eq : count = done.length + p) :
    Busy c outbox count ((publishAll c held p (held.drop p)).map some)
  /-- It is about to end. -/
  | ending {done held waiting : List OutboxEvent} {p : Nat}
    (laid : Laid c.workerId done held waiting outbox) (le : p ≤ held.length)
    (count_eq : count = done.length + p) : Busy c outbox count ((finish c held p).map some)
  /-- It has read the clock and is about to mark what it has published. -/
  | settling {done held waiting : List OutboxEvent} {p : Nat} {now : Instant}
    (laid : Laid c.workerId done held waiting outbox) (le : p ≤ held.length)
    (count_eq : count = done.length + p) : Busy c outbox count ((settle c held p now).map some)

variable {c : RelayConfig} {outbox : List OutboxEvent} {count : Nat}

/-- New events do not disturb an iteration. -/
theorem Busy.append {q : Program (Option RunOutcome)} (h : Busy c outbox count q)
    {new : List OutboxEvent} (hnew : ∀ e ∈ new, e.bare = e) : Busy c (outbox ++ new) count q := by
  cases h with
  | claiming laid hc => exact .claiming (laid.append hnew) hc
  | publishing laid hlt hc => exact .publishing (laid.append hnew) hlt hc
  | ending laid hle hc => exact .ending (laid.append hnew) hle hc
  | settling laid hle hc => exact .settling (laid.append hnew) hle hc

theorem Busy.ended_eq {q : Program (Option RunOutcome)} (h : Busy c outbox count q) :
    q.ended = false := by
  cases h with
  | claiming _ _ => rfl
  | @publishing _ held _ p _ hlt _ =>
    rw [List.drop_eq_getElem_cons hlt]
    rfl
  | ending _ _ _ =>
    unfold finish
    split_ifs <;> rfl
  | settling _ _ _ => rfl

/-- How an iteration goes on after a request: it is still under way, or it has ended. -/
inductive Goes (c : RelayConfig) (outbox : List OutboxEvent) (count : Nat)
    (q : Program (Option RunOutcome)) : Prop
  | on (busy : Busy c outbox count q)
  | ends {done waiting : List OutboxEvent} (ended : q.ended = true)
    (laid : Laid c.workerId done [] waiting outbox) (count_eq : count = done.length)

/-- What the next request of an iteration does, if it is the only one: the store stays one whose
writes do not fail, and a message that is published is that of the next event. -/
structure Step (c : RelayConfig) (w : Surroundings) (m : Memory) (count : Nat)
    (q : Program (Option RunOutcome)) (r : Request) (k : r.Answer → Program (Option RunOutcome))
    (m' : Memory) : Prop where
  asks : q = .ask r k
  store : (w.answer r (.ofMemory m false)).2 = .ofMemory m' false
  next : ∀ msg ∈ (Exchange.message? ⟨r, (w.answer r (.ofMemory m false)).1⟩).toList,
    (m.outbox.map OutboxEvent.message)[count]? = some msg
  goes : Goes c m'.outbox
    (count + (Exchange.message? ⟨r, (w.answer r (.ofMemory m false)).1⟩).toList.length)
    (Program.resume k (w.answer r (.ofMemory m false)).1)

section

variable {m : Memory} {done held waiting : List OutboxEvent} {p : Nat}

/-- **What a claim is answered**: the first free events. -/
theorem answer_claim (sorted : m.outbox.Pairwise fun a b => a.createdAt ≤ b.createdAt)
    (w : Surroundings) {owner : String} (laid : Laid owner done [] waiting m.outbox) (limit : Nat)
    (now : Instant) (ttl : Int) :
    w.answer (.store (.claim limit owner now ttl)) (.ofMemory m false) =
      (some (.ok ((waiting.take limit).map (Memory.claimed owner now))),
        .ofMemory (m.update ((waiting.take limit).map OutboxEvent.id)
          (Memory.claimed owner now)) false) := by
  simp only [Surroundings.answer, Store.serve_ofMemory, StoreRequest.writes, if_true,
    Memory.run_claim, laid.batch_eq sorted]
  rfl

theorem step_claiming (hm : m.Sound)
    (sorted : m.outbox.Pairwise fun a b => a.createdAt ≤ b.createdAt) (w : Surroundings)
    {now : Instant} (laid : Laid c.workerId done [] waiting m.outbox) :
    ∃ r k m', Step c w m done.length ((claiming c now).map some) r k m' := by
  have hclaim := laid.claim hm c.batchSize now
  have hanswer := answer_claim sorted w laid c.batchSize now (ttl c)
  refine ⟨_, _, _, rfl, by rw [hanswer], ?_, ?_⟩
  · rw [hanswer]
    simp [Exchange.message?]
  · rw [hanswer]
    generalize (waiting.take c.batchSize).map (Memory.claimed c.workerId now) = events at hclaim ⊢
    rcases events with _ | ⟨e, events⟩
    · exact .ends rfl hclaim rfl
    · exact .on (.publishing (p := 0) hclaim (Nat.zero_lt_succ _) rfl)

theorem step_settling (hm : m.Sound) (w : Surroundings) {now : Instant}
    (laid : Laid c.workerId done held waiting m.outbox) (le : p ≤ held.length) :
    ∃ r k m', Step c w m (done.length + p) ((settle c held p now).map some) r k m' := by
  have hsettle := laid.settle hm p now
  have hanswer : w.answer (.store (.settle ((held.take p).map OutboxEvent.id) now
      ((held.drop p).map OutboxEvent.id) c.workerId)) (.ofMemory m false) =
        (some (.ok ()), .ofMemory (Memory.settled ((held.take p).map OutboxEvent.id) now
          ((held.drop p).map OutboxEvent.id) c.workerId m) false) := by
    simp only [Surroundings.answer, Store.serve_ofMemory, StoreRequest.writes, if_true,
      Memory.run_settle]
    rfl
  refine ⟨_, _, _, rfl, by rw [hanswer], ?_, ?_⟩
  · rw [hanswer]
    simp [Exchange.message?]
  · rw [hanswer]
    exact .ends rfl hsettle (by simp [Exchange.message?, Nat.min_eq_left le])

theorem step_ending (hm : m.Sound) (w : Surroundings)
    (laid : Laid c.workerId done held waiting m.outbox) (le : p ≤ held.length) :
    ∃ r k m', Step c w m (done.length + p) ((finish c held p).map some) r k m' := by
  unfold finish
  split_ifs with hp
  -- nothing was published: the clock is not asked
  · exact step_settling hm w laid le
  · exact ⟨.now, _, m, rfl, rfl, by simp [Exchange.message?],
      .on (.settling laid le rfl)⟩

theorem step_publishing (w : Surroundings) (hw : w.publisher.isSome)
    (laid : Laid c.workerId done held waiting m.outbox) (lt : p < held.length) :
    ∃ r k m', Step c w m (done.length + p) ((publishAll c held p (held.drop p)).map some) r k
      m' := by
  rw [List.drop_eq_getElem_cons lt]
  obtain ⟨a, ha⟩ := Option.isSome_iff_exists.1 hw
  have hanswer : ∀ t key payload, w.answer (.publish t key payload) (.ofMemory m false) =
      (some a, .ofMemory m false) := fun _ _ _ => congrArg (Prod.mk · _) ha
  refine ⟨_, _, m, rfl, by rw [hanswer], ?_, ?_⟩
  · rw [hanswer]
    rcases a with e | u
    · simp [Exchange.message?]
    · have hrow : m.outbox[done.length + p]? = some held[p] := by
        rw [laid.rows, List.append_assoc, List.getElem?_append_right (by omega),
          List.getElem?_append_left (by omega)]
        simp [lt]
      simp [Exchange.message?, hrow, OutboxEvent.message]
  · rw [hanswer]
    rcases a with e | u
    · exact .on (.ending laid (Nat.le_of_lt lt) rfl)
    · refine .on ?_
      show Busy c m.outbox (done.length + (p + 1))
        ((publishAll c held (p + 1) (held.drop (p + 1))).map some)
      obtain hlt | hge := Nat.lt_or_ge (p + 1) held.length
      · exact .publishing laid hlt rfl
      -- that was the last one
      · rw [List.drop_eq_nil_of_le hge]
        exact .ending laid (by omega) rfl

end

/-- **What the next request of an iteration does.** -/
theorem Busy.step {m : Memory} {q : Program (Option RunOutcome)} (h : Busy c m.outbox count q)
    (hm : m.Sound) (sorted : m.outbox.Pairwise fun a b => a.createdAt ≤ b.createdAt)
    (w : Surroundings) (hw : w.publisher.isSome) : ∃ r k m', Step c w m count q r k m' := by
  cases h with
  | claiming laid hc => exact hc ▸ step_claiming hm sorted w laid
  | publishing laid hlt hc => exact hc ▸ step_publishing w hw laid hlt
  | ending laid hle hc => exact hc ▸ step_ending hm w laid hle
  | settling laid hle hc => exact hc ▸ step_settling hm w laid hle

/-- What was published so far, if no iteration is under way, or one is. -/
inductive State (c : RelayConfig) (tasks : ι → Task) (x : Workers ι) (count : Nat) : Prop
  | between {done waiting : List OutboxEvent} (rests : ∀ i, Rests tasks x i)
    (laid : Laid c.workerId done [] waiting x.memory.outbox) (count_eq : count = done.length)
  | under {i : ι} (iterates : tasks i = .iterate c) (begun : x.log i ≠ [])
    (rests : ∀ j, j ≠ i → Rests tasks x j) (busy : Busy c x.memory.outbox count (x.rest i))

/-- The invariant: the writes do not fail, what was published is the beginning of the events, and
the parts of the outbox lie accordingly. -/
structure InOrder (c : RelayConfig) (tasks : ι → Task) (x : Workers ι) : Prop where
  store : x.store = .ofMemory x.memory false
  beginning : delivered x <+: x.memory.outbox.map OutboxEvent.message
  state : State c tasks x (delivered x).length

/-! ### Moves -/

variable {tasks : ι → Task} {x : Workers ι}

theorem concat_isPrefix {α : Type} {l l' : List α} {a : α} (h : l <+: l')
    (ha : l'[l.length]? = some a) : l ++ [a] <+: l' := by
  obtain ⟨t, rfl⟩ := h
  rw [List.getElem?_append_right (Nat.le_refl _), Nat.sub_self] at ha
  obtain ⟨t', rfl⟩ : ∃ t', t = a :: t' := by
    cases t with
    | nil => cases ha
    | cons b t => exact ⟨t, by rw [Option.some.inj ha]⟩
  exact ⟨t', by simp⟩

theorem messages_isPrefix_move (hx : x.IsInMemory) (hs : x.memory.Sound) (mv : Move ι) :
    x.memory.outbox.map OutboxEvent.message <+:
      (x.move mv).memory.outbox.map OutboxEvent.message := by
  obtain ⟨-, hm⟩ | ⟨i, ex, g, -, ho, hstep⟩ := Pool.outbox_move hx hs mv
  · rw [hm]
  · have hsame : (x.memory.outbox.map g).map OutboxEvent.message =
        x.memory.outbox.map OutboxEvent.message := by
      rw [List.map_map]
      exact List.map_congr_left fun e he =>
        OutboxEvent.message_eq_of_bare (hstep e he).bare_eq
    rw [ho, List.map_append, hsame]
    exact List.prefix_append _ _

theorem delivered_move_turn {i : ι} {r : Request} {k : r.Answer → Program (Option RunOutcome)}
    (h : x.rest i = .ask r k) (w : Surroundings) : delivered (x.move (.turn i w)) =
      delivered x ++ (Exchange.message? ⟨r, (w.answer r x.store).1⟩).toList := by
  rw [delivered, Pool.history_turn h, List.filterMap_append]
  cases hm : Exchange.message? ⟨r, (w.answer r x.store).1⟩ <;> simp [delivered, hm]

theorem Rests.of_ne {i j : ι} (h : Rests tasks x j) (hij : j ≠ i) (w : Surroundings) :
    Rests tasks (x.move (.turn i w)) j := by
  unfold Rests
  rw [(Pool.of_ne hij w).1, (Pool.of_ne hij w).2]
  exact h

theorem InOrder.turn_busy (h : InOrder c tasks x) (hs : x.memory.Sound)
    (sorted : x.memory.outbox.Pairwise fun a b => a.createdAt ≤ b.createdAt) {i : ι}
    (iterates : tasks i = .iterate c) (rests : ∀ j, j ≠ i → Rests tasks x j)
    (busy : Busy c x.memory.outbox (delivered x).length (x.rest i)) (w : Surroundings)
    (hw : w.publisher.isSome) : InOrder c tasks (x.move (.turn i w)) := by
  obtain ⟨r, k, m', asks, store, next, goes⟩ := busy.step hs sorted w hw
  rw [← h.store] at store next goes
  have hmove := Pool.move_turn asks w
  have hdelivered := delivered_move_turn asks w
  have hmemory : (x.move (.turn i w)).memory = m' := by
    rw [Pool.memory, hmove, store, Store.memory_ofMemory]
  have hrest : (x.move (.turn i w)).rest i = Program.resume k (w.answer r x.store).1 := by
    simp [hmove]
  have hrests : ∀ j, j ≠ i → Rests tasks (x.move (.turn i w)) j :=
    fun j hj => (rests j hj).of_ne hj w
  have hgrow := messages_isPrefix_move ⟨false, h.store⟩ hs (.turn i w)
  refine ⟨by rw [hmemory, hmove, store], ?_, ?_⟩
  · rw [hdelivered]
    cases hm : Exchange.message? ⟨r, (w.answer r x.store).1⟩ with
    | none => simpa using h.beginning.trans hgrow
    | some msg =>
      have hnext := next msg (by simp [hm])
      exact (concat_isPrefix h.beginning hnext).trans hgrow
  · rw [hdelivered, List.length_append]
    cases goes with
    | on busy =>
      refine .under iterates ?_ hrests ?_
      · rw [hmove]
        simp [Pool.log]
      · rwa [hmemory, hrest]
    | ends ended laid hcount =>
      refine .between (fun j => ?_) (hmemory ▸ laid) hcount
      by_cases hj : j = i
      · subst hj
        exact fun _ => .inr (hrest ▸ ended)
      · exact hrests j hj

theorem State.laid (h : State c tasks x count) (rests : ∀ i, Rests tasks x i) :
    ∃ done waiting, Laid c.workerId done [] waiting x.memory.outbox ∧ count = done.length := by
  cases h with
  | between _ laid hcount => exact ⟨_, _, laid, hcount⟩
  | @under i iterates begun _ busy =>
    obtain hlog | hended := rests i (by rw [iterates]; rfl)
    · exact absurd (List.isEmpty_iff.1 hlog) begun
    · rw [busy.ended_eq] at hended
      cases hended

theorem InOrder.turn_begin (h : InOrder c tasks x) {i : ι} (iterates : tasks i = .iterate c)
    (hrest : x.rest i = (Task.iterate c).program) (hlog : x.log i = [])
    (rests : ∀ j, j ≠ i → Rests tasks x j) (w : Surroundings) :
    InOrder c tasks (x.move (.turn i w)) := by
  have asks : x.rest i = .ask .now fun now => (claiming c now).map some := hrest
  have hmove := Pool.move_turn asks w
  have hstore : (x.move (.turn i w)).store = x.store := by rw [hmove]; rfl
  have hmemory : (x.move (.turn i w)).memory = x.memory := by rw [Pool.memory, hstore]; rfl
  have hdelivered : delivered (x.move (.turn i w)) = delivered x := by
    rw [delivered_move_turn asks]
    simp [Exchange.message?]
  obtain ⟨done, waiting, laid, hcount⟩ := h.state.laid fun j => by
    by_cases hj : j = i
    · subst hj
      exact fun _ => .inl (by simp [hlog])
    · exact rests j hj
  have hclaiming : (x.move (.turn i w)).rest i = (claiming c w.clock).map some := by
    rw [hmove]
    exact Function.update_self ..
  refine ⟨by rw [hstore, hmemory]; exact h.store, ?_, ?_⟩
  · rw [hdelivered, hmemory]
    exact h.beginning
  · rw [hdelivered]
    refine .under iterates ?_ (fun j hj => (rests j hj).of_ne hj w) ?_
    · rw [hmove]
      simp [Pool.log]
    · rw [hmemory, hclaiming]
      exact .claiming laid hcount

/-- **A turn of an iteration**, if no other one is under way: it is not under way either, or it is
the one that the invariant tells of. -/
theorem InOrder.turn_iterate (h : InOrder c tasks x) (hs : x.memory.Sound)
    (sorted : x.memory.outbox.Pairwise fun a b => a.createdAt ≤ b.createdAt) {i : ι}
    (iterates : tasks i = .iterate c) (unbegun : x.log i = [] → x.rest i = (tasks i).program)
    (rests : ∀ j, j ≠ i → Rests tasks x j) (w : Surroundings) (hw : w.publisher.isSome) :
    InOrder c tasks (x.move (.turn i w)) := by
  by_cases hlog : x.log i = []
  · exact h.turn_begin iterates (iterates ▸ unbegun hlog) hlog rests w
  cases hended : (x.rest i).ended with
  | true =>
    have hx : x.turn i w = x := by
      unfold Pool.turn
      cases hrest : x.rest i with
      | ask r k => simp [hrest, Program.ended] at hended
      | done a => rfl
      | crash => rfl
    rwa [Pool.move, hx]
  | false =>
    have worker : (tasks i).worker?.isSome := by rw [iterates]; rfl
    cases h.state with
    | between hall _ _ =>
      obtain hempty | hdone := hall i worker
      · exact absurd (List.isEmpty_iff.1 hempty) hlog
      · rw [hended] at hdone
        cases hdone
    | @under j iterates' begun hothers busy =>
      obtain rfl : j = i := by
        by_contra hj
        obtain hempty | hdone := rests j hj (by rw [iterates']; rfl)
        · exact begun (List.isEmpty_iff.1 hempty)
        · rw [busy.ended_eq] at hdone
          cases hdone
      exact h.turn_busy hs sorted iterates rests busy w hw

theorem store_post (m : Memory) (rows : List Row) (w : Surroundings) :
    ∃ m', (w.answer (.store (.post rows)) (.ofMemory m false)).2 = .ofMemory m' false ∧
      (m' = m ∨ m'.outbox = m.outbox ++ rows.filterMap Row.event?) := by
  simp only [Surroundings.answer, Store.serve_ofMemory, StoreRequest.writes, if_true]
  rcases h : (StoreRequest.post rows).work.run m with ⟨e | u, m'⟩
  · exact ⟨m, rfl, .inl rfl⟩
  · refine ⟨m', rfl, .inr ?_⟩
    rw [(Memory.run_insertAll h).1, Memory.addAll_eq]

theorem InOrder.turn_insert (h : InOrder c tasks x) (hs : x.memory.Sound) {i : ι} {rows : List Row}
    {pending : ∀ e, .event e ∈ rows → e.bare = e} (inserts : tasks i = .insert rows pending)
    {k : Except StoreError Unit → Program (Option RunOutcome)}
    (asks : x.rest i = .ask (.store (.post rows)) k) (w : Surroundings) :
    InOrder c tasks (x.move (.turn i w)) := by
  have hmove := Pool.move_turn asks w
  obtain ⟨m', hstore, houtbox⟩ := store_post x.memory rows w
  rw [← h.store] at hstore
  have hmemory : (x.move (.turn i w)).memory = m' := by
    rw [Pool.memory, hmove, hstore, Store.memory_ofMemory]
  have hdelivered : delivered (x.move (.turn i w)) = delivered x := by
    rw [delivered_move_turn asks]
    simp [Exchange.message?]
  have hrests : ∀ j, (tasks j).worker?.isSome → j ≠ i := by
    rintro j hj rfl
    rw [inserts] at hj
    cases hj
  have rests : ∀ j, Rests tasks x j → Rests tasks (x.move (.turn i w)) j :=
    fun j hj hworker => (hj.of_ne (hrests j hworker) w) hworker
  obtain ⟨new, hnew, hout⟩ : ∃ new : List OutboxEvent, (∀ e ∈ new, e.bare = e) ∧
      (x.move (.turn i w)).memory.outbox = x.memory.outbox ++ new := by
    rw [hmemory]
    obtain rfl | ho := houtbox
    · exact ⟨[], List.forall_mem_nil _, (List.append_nil _).symm⟩
    · refine ⟨_, fun e he => ?_, ho⟩
      obtain ⟨row, hrow, hev⟩ := List.mem_filterMap.1 he
      obtain rfl : row = .event e := by
        cases row <;> cases hev
        rfl
      exact pending e hrow
  refine ⟨by rw [hmemory, hmove, hstore], ?_, ?_⟩
  · rw [hdelivered]
    exact h.beginning.trans (messages_isPrefix_move ⟨false, h.store⟩ hs _)
  · rw [hdelivered]
    cases h.state with
    | between hall laid hcount =>
      have hlaid := laid.append hnew
      rw [← hout] at hlaid
      exact .between (fun j => rests j (hall j)) hlaid hcount
    | @under j iterates begun hothers busy =>
      have hj : j ≠ i := hrests j (by rw [iterates]; rfl)
      refine .under iterates ?_ (fun l hl => rests l (hothers l hl)) ?_
      · rw [(Pool.of_ne hj w).2]
        exact begun
      · rw [(Pool.of_ne hj w).1, hout]
        exact busy.append hnew

/-! ### Runs -/

theorem rest_of_log_eq_nil {f : Bool} {ms : List (Move ι)} {i : ι}
    (h : ((start f tasks).after ms).log i = []) :
    ((start f tasks).after ms).rest i = (tasks i).program := by
  have ht : (tasks i).program.Trace (((start f tasks).after ms).log i)
      (((start f tasks).after ms).rest i) :=
    Pool.trace_log (.ofMemory .empty f) (fun i => (tasks i).program) ms i
  rw [h] at ht
  generalize ((start f tasks).after ms).rest i = q, (tasks i).program = p at ht ⊢
  cases ht
  rfl

/-- Times of creation that grow along the rows have always grown. -/
theorem sorted_of_move (hx : x.IsInMemory) (hs : x.memory.Sound) {mv : Move ι}
    (h : (x.move mv).memory.outbox.Pairwise fun a b => a.createdAt ≤ b.createdAt) :
    x.memory.outbox.Pairwise fun a b => a.createdAt ≤ b.createdAt := by
  obtain ⟨-, hm⟩ | ⟨i, ex, g, -, ho, hstep⟩ := Pool.outbox_move hx hs mv
  · rwa [hm] at h
  · rw [ho, List.pairwise_append, List.pairwise_map] at h
    refine h.1.imp_of_mem fun {a b} ha hb hab => ?_
    rwa [OutboxEvent.createdAt_eq_of_bare (hstep a ha).bare_eq,
      OutboxEvent.createdAt_eq_of_bare (hstep b hb).bare_eq] at hab

theorem messages_isPrefix_after {f : Bool} (ms ms' : List (Move ι)) :
    ((start f tasks).after ms).memory.outbox.map OutboxEvent.message <+:
      ((start f tasks).after (ms ++ ms')).memory.outbox.map OutboxEvent.message := by
  induction ms' using List.reverseRecOn with
  | nil => rw [List.append_nil]
  | append_singleton ms' mv ih =>
    rw [← List.append_assoc, ← after_move]
    exact ih.trans (messages_isPrefix_move (isInMemory _) (sound _) mv)

theorem sorted_of_append {f : Bool} {ms ms' : List (Move ι)}
    (h : ((start f tasks).after (ms ++ ms')).memory.outbox.Pairwise
      fun a b => a.createdAt ≤ b.createdAt) :
    ((start f tasks).after ms).memory.outbox.Pairwise fun a b => a.createdAt ≤ b.createdAt := by
  induction ms' using List.reverseRecOn with
  | nil => rwa [List.append_nil] at h
  | append_singleton ms' mv ih =>
    rw [← List.append_assoc, ← after_move] at h
    exact ih (sorted_of_move (isInMemory _) (sound _) h)

/-- **The invariant of a run** of a single worker. -/
theorem inOrder (single : ∀ i d, tasks i = .iterate d → d = c) (ms : List (Move ι))
    (orderly : Orderly tasks (start false tasks) ms)
    (sorted : ((start false tasks).after ms).memory.outbox.Pairwise
      fun a b => a.createdAt ≤ b.createdAt) : InOrder c tasks ((start false tasks).after ms) := by
  induction ms using List.reverseRecOn with
  | nil =>
    have laid : Laid c.workerId [] [] [] (start false tasks).memory.outbox :=
      ⟨rfl, List.forall_mem_nil _, List.forall_mem_nil _, List.forall_mem_nil _⟩
    exact ⟨rfl, List.nil_prefix, .between (fun i _ => .inl rfl) laid rfl⟩
  | append_singleton ms mv ih =>
    obtain ⟨horderly, hadmits, -⟩ := orderly_append.1 orderly
    have hsorted := sorted_of_append sorted
    rw [← after_move]
    have h := ih horderly hsorted
    cases mv with
    | failNext => exact hadmits.elim
    | turn i w =>
      obtain ⟨hw, halone⟩ := hadmits
      cases hi : tasks i with
      | iterate d =>
        obtain rfl := single i d hi
        exact h.turn_iterate (sound ms) hsorted hi rest_of_log_eq_nil
          (halone (by rw [hi]; rfl)) w hw
      | insert rows pending =>
        obtain hx | ⟨r, k, asks, hx⟩ := ((start false tasks).after ms).turn_cases i w
        · rwa [Pool.move, hx]
        · have hhistory := Pool.history_turn asks w
          rw [after_move] at hhistory
          obtain ⟨a, ha⟩ := exchange_of_insert false tasks (ms ++ [.turn i w]) hi _
            (Pool.mem_log_of_append hhistory)
          cases ha
          exact h.turn_insert (sound ms) hi asks w

end Relay

end DoubleEntry
