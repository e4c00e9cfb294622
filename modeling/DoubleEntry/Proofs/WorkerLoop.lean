import DoubleEntry.Proofs.GivenEvents
import DoubleEntry.Relay.Loop

/-!
# Workers in their loops

A worker carries out iterations until it is told to stop, over a store to which others have access
as well.  Whatever happens in between, an iteration goes on to its end (`Relay.Runner.Step.stays`),
and after it the worker rests as long as its outcome and the failures before it ask for
(`Relay.Runner.paced_after`).

## Main definitions

* `Relay.Runner`: a worker in its loop, with all that it has exchanged.
* `Relay.Runner.Move`, `Relay.Runner.move`, `Relay.Runner.after`: what can happen next.
* `Relay.Runner.Step`: all that a move can do to the worker.
* `Relay.delayAfter`: how long a worker rests.
-/

namespace DoubleEntry

/-- The outcome is a failure, whole or in part. -/
def RunOutcome.isFailure : RunOutcome → Bool
  | partly _ _ | failed _ => true
  | idle | published _ => false

namespace Loop

/-- The delays to come. -/
def delays? : Loop → Option Backoff
  | ready b | working b | resting b _ => some b
  | stopped => none

/-- How long the worker rests. -/
def delay : Loop → Nat
  | resting _ d => d
  | _ => 0

end Loop

namespace Relay

/-- An iteration that has ended. -/
structure Iteration where
  log : List Exchange
  outcome : RunOutcome
  /-- Nanoseconds that the worker wanted to rest after it. -/
  delay : Nat

/-- A worker in its loop, over a store. -/
structure Runner where
  store : Store
  loop : Loop
  /-- What the signal says. -/
  stop : Bool
  /-- The signal was given, and the worker has not been woken up by it. -/
  changed : Bool
  /-- Nobody is left who could signal. -/
  abandoned : Bool
  /-- What is left of the iteration that is under way. -/
  rest : Program RunOutcome
  /-- The exchanges of that iteration. -/
  log : List Exchange
  past : List Iteration

namespace Runner

/-- What can happen to a worker and its store. -/
inductive Move where
  /-- Others carry out a unit of work that writes. -/
  | write (w : Work Unit)
  /-- Others carry out a unit of work that reads. -/
  | read (w : Work Unit)
  /-- The next write is made to fail. -/
  | failNext
  /-- The worker is told to stop. -/
  | signal
  /-- Whoever could signal is gone. -/
  | abandon
  /-- Before an iteration the worker looks whether it shall stop. -/
  | look
  /-- The iteration makes its next request. -/
  | turn (w : Surroundings)
  /-- The iteration ends. -/
  | finish
  /-- The delay has passed. -/
  | wake
  /-- The worker looks at the signal while it rests. -/
  | notice

/-- A worker that has done nothing yet. -/
def start (s : Store) (stop : Bool) : Runner := ⟨s, .start, stop, false, false, .crash, [], []⟩

variable (c : RelayConfig)

/-- The worker after a move. -/
def move (x : Runner) : Move → Runner
  | .write w => { x with store := (x.store.write w).2 }
  | .read w => { x with store := (x.store.read w).2 }
  | .failNext => { x with store := x.store.failNext }
  | .signal => { x with stop := true, changed := true }
  | .abandon => { x with abandoned := true }
  | .look =>
    match x.loop with
    | .ready _ =>
      { x with loop := x.loop.step c (.look x.stop), rest := runOnce c, log := [] }
    | _ => x
  | .turn w =>
    match x.loop, x.rest with
    | .working _, .ask r k =>
      { x with
        store := (w.answer r x.store).2
        rest := Program.resume k (w.answer r x.store).1
        log := x.log ++ [⟨r, (w.answer r x.store).1⟩] }
    | _, _ => x
  | .finish =>
    match x.loop, x.rest with
    | .working _, .done o =>
      let loop := x.loop.step c (.finish o)
      { x with loop := loop, past := x.past ++ [⟨x.log, o, loop.delay⟩] }
    | _, _ => x
  | .wake => { x with loop := x.loop.step c .wake }
  | .notice =>
    match x.loop with
    | .resting _ _ =>
      if x.changed then { x with loop := x.loop.step c .signal, changed := false }
      else if x.abandoned then { x with loop := x.loop.step c .abandon }
      else x
    | _ => x

/-- The worker after some moves. -/
def after (x : Runner) (ms : List Move) : Runner := ms.foldl (move c) x

variable {c} {x y : Runner}

theorem after_cons (x : Runner) (m : Move) (ms : List Move) :
    x.after c (m :: ms) = (x.move c m).after c ms := rfl

theorem after_concat (x : Runner) (ms : List Move) (m : Move) :
    x.after c (ms ++ [m]) = (x.after c ms).move c m := by
  rw [after, List.foldl_append]
  rfl

/-- The log of the iteration that is under way. -/
def current (x : Runner) : List (List Exchange) :=
  match x.loop with
  | .working _ => [x.log]
  | _ => []

/-- What the iterations have exchanged, one after another. -/
def logs (x : Runner) : List (List Exchange) := x.past.map Iteration.log ++ x.current

/-- What others do to the store. -/
def Move.onStore? : Move → Option (Store → Store)
  | write w => some fun s => (s.write w).2
  | read w => some fun s => (s.read w).2
  | failNext => some Store.failNext
  | _ => none

/-- All that a move can do to the worker. -/
inductive Step (c : RelayConfig) (x : Runner) : Move → Runner → Prop
  | others {m : Move} {f : Store → Store} (h : m.onStore? = some f) :
    Step c x m { x with store := f x.store }
  /-- The worker stays where it is. -/
  | aside {m : Move} {y : Runner} (store : y.store = x.store) (loop : y.loop = x.loop)
    (rest : y.rest = x.rest) (log : y.log = x.log) (past : y.past = x.past)
    (stop : x.stop = true → y.stop = true) : Step c x m y
  | begins {m : Move} {b : Backoff} (ready : x.loop = .ready b) (stop : x.stop = false) :
    Step c x m { x with loop := .working b, rest := runOnce c, log := [] }
  | asks {m : Move} {b : Backoff} {r : Request} {k : r.Answer → Program RunOutcome}
    (w : Surroundings) (working : x.loop = .working b) (rest : x.rest = .ask r k) :
    Step c x m { x with
      store := (w.answer r x.store).2
      rest := Program.resume k (w.answer r x.store).1
      log := x.log ++ [⟨r, (w.answer r x.store).1⟩] }
  | ends {m : Move} {b : Backoff} {o : RunOutcome} (working : x.loop = .working b)
    (rest : x.rest = .done o) : Step c x m { x with
      loop := .resting (pause c b o).2 (pause c b o).1
      past := x.past ++ [⟨x.log, o, (pause c b o).1⟩] }
  /-- It goes on to look whether it shall stop. -/
  | wakes {m : Move} {b : Backoff} {d : Nat} (resting : x.loop = .resting b d) (changed : Bool) :
    Step c x m { x with loop := .ready b, changed := changed }
  /-- It stops between two iterations. -/
  | stops {m : Move} {y : Runner} (between : ∀ b, x.loop ≠ .working b) (store : y.store = x.store)
    (stopped : y.loop = .stopped) (past : y.past = x.past) (stop : y.stop = x.stop) : Step c x m y

theorem step_self (x : Runner) (m : Move) : Step c x m x :=
  .aside rfl rfl rfl rfl rfl fun h => h

theorem step_look (x : Runner) : Step c x .look (x.move c .look) := by
  rw [move]
  split
  · rename_i b hloop
    cases hstop : x.stop with
    | false =>
      have hstep : x.loop.step c (.look x.stop) = .working b := by rw [hloop, hstop]; rfl
      rw [← hstop, hstep]
      exact .begins hloop hstop
    | true =>
      have hstep : x.loop.step c (.look x.stop) = .stopped := by rw [hloop, hstop]; rfl
      rw [← hstop, hstep]
      exact .stops (by simp [hloop]) rfl rfl rfl rfl
  · exact step_self x _

theorem step_notice (x : Runner) : Step c x .notice (x.move c .notice) := by
  rw [move]
  split
  · rename_i b d hloop
    split_ifs
    · have hstep : x.loop.step c .signal = .ready b := by rw [hloop]; rfl
      rw [hstep]
      exact .wakes hloop false
    · exact .stops (by simp [hloop]) rfl (by rw [hloop]; rfl) rfl rfl
    · exact step_self x _
  · exact step_self x _

theorem step_move (x : Runner) (m : Move) : Step c x m (x.move c m) := by
  cases m with
  | write w => exact .others (f := fun s => (s.write w).2) rfl
  | read w => exact .others (f := fun s => (s.read w).2) rfl
  | failNext => exact .others rfl
  | signal => exact .aside rfl rfl rfl rfl rfl fun _ => rfl
  | abandon => exact .aside rfl rfl rfl rfl rfl fun h => h
  | look => exact step_look x
  | turn w =>
    rw [move]
    split
    · rename_i b r k hloop hrest
      exact .asks w hloop hrest
    · exact step_self x _
  | finish =>
    rw [move]
    split
    · rename_i b o hloop hrest
      rw [hloop]
      exact .ends hloop hrest
    · exact step_self x _
  | wake =>
    rw [move]
    cases hloop : x.loop with
    | resting b d => exact .wakes hloop x.changed
    | _ => exact .aside rfl hloop.symm rfl rfl rfl fun h => h
  | notice => exact step_notice x

theorem after_induction {P : Runner → Prop} {Q : Move → Prop} (h : P x)
    (step : ∀ x m y, Q m → Step c x m y → P x → P y) {ms : List Move} (hms : ∀ m ∈ ms, Q m) :
    P (x.after c ms) := by
  induction ms generalizing x with
  | nil => exact h
  | cons m ms ih =>
    obtain ⟨hm, hms⟩ := List.forall_mem_cons.1 hms
    exact ih (step x m _ hm (step_move x m) h) hms

/-- What holds at first and is kept by every step holds after all moves, whatever they are. -/
theorem after_of_step {P : Runner → Prop} (h : P x) (step : ∀ x m y, Step c x m y → P x → P y)
    (ms : List Move) : P (x.after c ms) :=
  after_induction (Q := fun _ => True) h (fun x m y _ => step x m y) fun _ _ => trivial

/-- **An iteration goes on to its end**, whatever happens. -/
theorem Step.stays {m : Move} (hstep : Step c x m y) {b : Backoff} (h : x.loop = .working b) :
    y.loop = .working b ∨ ∃ o, x.rest = .done o := by
  cases hstep with
  | others _ => exact .inl h
  | aside _ loop _ _ _ _ => exact .inl (loop.trans h)
  | begins ready _ => cases ready.symm.trans h
  | asks _ _ _ => exact .inl h
  | ends _ rest => exact .inr ⟨_, rest⟩
  | wakes resting _ => cases resting.symm.trans h
  | stops between _ _ _ _ => exact absurd h (between b)

/-! ### Delays -/

/-- The results of the iterations that have ended. -/
def outcomes (x : Runner) : List RunOutcome := x.past.map Iteration.outcome

end Runner

/-- How many failures stand at the end. -/
def failuresAtEnd (os : List RunOutcome) : Nat := (os.reverse.takeWhile RunOutcome.isFailure).length

/-- How long a worker rests after an iteration, by the results of those before it: not at all after
it has published all that it was given; for its interval if there was nothing to publish; and after
one failure after another for a fifth of a second, twice as long and so on, up to three seconds. -/
def delayAfter (c : RelayConfig) (before : List RunOutcome) : RunOutcome → Nat
  | .published _ => 0
  | .idle => c.pollInterval
  | .partly _ _ | .failed _ => min (200000000 * 2 ^ failuresAtEnd before) 3000000000

/-- The delays after so many failures. -/
def delaysAfter (failures : Nat) : Backoff :=
  { Backoff.standard with current := min (200000000 * 2 ^ failures) 3000000000 }

theorem failuresAtEnd_concat (os : List RunOutcome) (o : RunOutcome) :
    failuresAtEnd (os ++ [o]) = if o.isFailure then failuresAtEnd os + 1 else 0 := by
  rw [failuresAtEnd, List.reverse_append, List.reverse_singleton, List.singleton_append,
    List.takeWhile_cons]
  split_ifs <;> rfl

theorem delaysAfter_next (k : Nat) : (delaysAfter k).next.2 = delaysAfter (k + 1) := by
  have hdouble : min (min (200000000 * 2 ^ k) 3000000000 * 2) 3000000000 =
      min (200000000 * 2 ^ (k + 1)) 3000000000 := by
    rw [pow_succ]
    omega
  exact congrArg (Backoff.mk 200000000 3000000000) hdouble

/-- **The delay after an iteration**, and the delays after that. -/
theorem pause_delaysAfter (c : RelayConfig) (os : List RunOutcome) (o : RunOutcome) :
    pause c (delaysAfter (failuresAtEnd os)) o =
      (delayAfter c os o, delaysAfter (failuresAtEnd (os ++ [o]))) := by
  rw [failuresAtEnd_concat]
  cases o with
  | idle => rfl
  | published n => rfl
  | partly n m => exact Prod.ext rfl (delaysAfter_next _)
  | failed text => exact Prod.ext rfl (delaysAfter_next _)

theorem of_concat_eq {α : Type} {l before after : List α} {a b : α}
    (h : l ++ [a] = before ++ b :: after) :
    l = before ∧ a = b ∨ ∃ after', l = before ++ b :: after' := by
  rcases List.eq_nil_or_concat' after with rfl | ⟨after, last, rfl⟩
  · obtain ⟨hl, hab⟩ := List.append_inj' h rfl
    exact .inl ⟨hl, List.singleton_inj.1 hab⟩
  · rw [← List.cons_append, ← List.append_assoc] at h
    exact .inr ⟨after, (List.append_inj' h rfl).1⟩

namespace Runner

variable {c : RelayConfig} {x y : Runner}

/-- The delays are those that the results of the iterations ask for. -/
structure Paced (c : RelayConfig) (x : Runner) : Prop where
  delays : ∀ b, x.loop.delays? = some b → b = delaysAfter (failuresAtEnd x.outcomes)
  past : ∀ before it after, x.past = before ++ it :: after →
    it.delay = delayAfter c (before.map Iteration.outcome) it.outcome

theorem Paced.step {m : Move} (h : x.Paced c) (hstep : Step c x m y) : y.Paced c := by
  have same {y : Runner} (hpast : y.past = x.past)
      (hloop : ∀ b, y.loop.delays? = some b → x.loop.delays? = some b) : y.Paced c :=
    ⟨fun b hb => by rw [outcomes, hpast]; exact h.delays b (hloop b hb), hpast ▸ h.past⟩
  cases hstep with
  | others _ => exact same rfl fun b hb => hb
  | aside _ loop _ _ past _ => exact same past fun b hb => loop ▸ hb
  | begins ready _ => exact same rfl fun b hb => by rw [ready]; exact hb
  | asks w working _ => exact same rfl fun b hb => hb
  | wakes resting _ => exact same rfl fun b hb => by rw [resting]; exact hb
  | stops _ _ stopped past _ =>
    refine same past fun b hb => ?_
    rw [stopped] at hb
    cases hb
  | @ends b o working _ =>
    obtain rfl := h.delays b (by rw [working]; rfl)
    rw [pause_delaysAfter]
    refine ⟨fun b hb => ?_, fun before it after hpast => ?_⟩
    · have houtcomes : (x.past ++ [(⟨x.log, o, delayAfter c x.outcomes o⟩ : Iteration)]).map
          Iteration.outcome = x.outcomes ++ [o] := List.map_append
      rw [outcomes, houtcomes]
      exact (Option.some.inj hb).symm
    · obtain ⟨hbefore, hit⟩ | ⟨after', hpast'⟩ := of_concat_eq hpast
      · rw [← hbefore, ← hit]
        rfl
      · exact h.past before it after' hpast'

/-- **The delays of a worker**, whatever happens to it. -/
theorem paced_after (s : Store) (stop : Bool) (ms : List Move) :
    ((start s stop).after c ms).Paced c := by
  refine after_of_step ⟨fun b hb => (Option.some.inj hb).symm, ?_⟩
    (fun _ _ _ hstep h => h.step hstep) ms
  intro before it after h
  exact absurd h.symm (by simp [start])

end Runner

end Relay

end DoubleEntry
