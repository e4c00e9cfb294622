import DoubleEntry.Proofs.WorkerLoop

/-!
# Workers that shall stop

Once a worker shall stop no iteration begins; those that have begun are the same ones ever after,
and the one that is under way goes on (`Relay.Runner.goOn_after`).  So no further claim is made once
it has made its own (`Relay.Runner.Traced.claims`), and it comes to its end, with the settlement of
the events that it was given, if the publisher answers (`Relay.Runner.Traced.ends`).

## Main definitions

* `Relay.Runner.GoOn`: iterations are the same ones.
* `Relay.Runner.Traced`: the iterations follow their program.
* `Relay.Runner.history`: all that was exchanged in iterations.
-/

namespace DoubleEntry

namespace Relay

namespace Runner

variable {c : RelayConfig} {x y : Runner}

/-! ### The iterations that have begun -/

/-- The iterations are the same ones, and have at most gone on. -/
def GoOn (ls ls' : List (List Exchange)) : Prop := List.Forall₂ (· <+: ·) ls ls'

theorem goOn_refl (ls : List (List Exchange)) : GoOn ls ls :=
  List.forall₂_same.2 fun _ _ => List.prefix_rfl

theorem GoOn.trans {ls ls' ls'' : List (List Exchange)} (h : GoOn ls ls') (h' : GoOn ls' ls'') :
    GoOn ls ls'' := by
  induction h generalizing ls'' with
  | nil => exact h'
  | cons hl _ ih =>
    cases h' with
    | cons hl' h' => exact .cons (hl.trans hl') (ih h')

theorem current_eq_nil (h : ∀ b, x.loop ≠ .working b) : x.current = [] := by
  unfold current
  split
  · rename_i b hb
    exact absurd hb (h b)
  · rfl

/-- **If a worker shall stop**, no iteration begins, and the one that is under way goes on. -/
theorem Step.goOn {m : Move} (hstep : Step c x m y) (h : x.stop = true) :
    y.stop = true ∧ GoOn x.logs y.logs := by
  have same {y : Runner} (hstop : y.stop = true) (hlogs : y.logs = x.logs) :
      y.stop = true ∧ GoOn x.logs y.logs := ⟨hstop, hlogs ▸ goOn_refl _⟩
  cases hstep with
  | others _ => exact same h rfl
  | aside _ loop _ log past stop =>
    exact same (stop h) (by simp only [Runner.logs, current, loop, log, past])
  | begins _ stop =>
    rw [h] at stop
    cases stop
  | asks w working _ =>
    refine ⟨h, ?_⟩
    simp only [Runner.logs, current, working]
    exact List.rel_append (goOn_refl _) (.cons (List.prefix_append _ _) .nil)
  | ends working _ => exact same h (by simp [Runner.logs, current, working])
  | wakes resting _ => exact same h (by simp [Runner.logs, current, resting])
  | stops between _ stopped past stop =>
    refine same (stop.trans h) ?_
    rw [Runner.logs, Runner.logs, current_eq_nil between, past, current, stopped]

/-- **Once a worker shall stop** no iteration begins, whatever happens; those that have begun go
on. -/
theorem goOn_after (h : x.stop = true) (ms : List Move) : GoOn x.logs (x.after c ms).logs := by
  refine (after_of_step (P := fun y => y.stop = true ∧ GoOn x.logs y.logs)
    ⟨h, goOn_refl _⟩ (fun y m z hstep hy => ?_) ms).2
  obtain ⟨hstop, hlogs⟩ := hstep.goOn hy.1
  exact ⟨hstop, hy.2.trans hlogs⟩

/-! ### Traces -/

/-- The iterations follow their program. -/
structure Traced (c : RelayConfig) (x : Runner) : Prop where
  working : ∀ b, x.loop = .working b → (runOnce c).Trace x.log x.rest
  past : ∀ it ∈ x.past, (runOnce c).Trace it.log (.done it.outcome)

theorem Traced.step {m : Move} (h : x.Traced c) (hstep : Step c x m y) : y.Traced c := by
  cases hstep with
  | others _ => exact ⟨h.working, h.past⟩
  | aside _ loop rest log past _ =>
    exact ⟨fun b hb => by rw [log, rest]; exact h.working b (loop ▸ hb), past ▸ h.past⟩
  | begins _ _ => exact ⟨fun _ _ => .nil _, h.past⟩
  | asks w working rest =>
    refine ⟨fun _ _ => ?_, h.past⟩
    have htrace := h.working _ working
    rw [rest] at htrace
    exact htrace.snoc _
  | ends working rest =>
    refine ⟨nofun, fun it hit => ?_⟩
    obtain hit | hit := List.mem_append.1 hit
    · exact h.past it hit
    · obtain rfl := List.mem_singleton.1 hit
      have htrace := h.working _ working
      rwa [rest] at htrace
  | wakes _ _ => exact ⟨nofun, h.past⟩
  | stops _ _ stopped past _ =>
    refine ⟨fun b hb => ?_, past ▸ h.past⟩
    rw [stopped] at hb
    cases hb

theorem Traced.after (h : x.Traced c) (ms : List Move) : (x.after c ms).Traced c :=
  after_of_step h (fun _ _ _ hstep h => h.step hstep) ms

theorem Traced.of_logs (h : x.Traced c) {es : List Exchange} (hes : es ∈ x.logs) :
    ∃ q, (runOnce c).Trace es q := by
  obtain hes | hes := List.mem_append.1 hes
  · obtain ⟨it, hit, rfl⟩ := List.mem_map.1 hes
    exact ⟨_, h.past it hit⟩
  · unfold current at hes
    split at hes
    · rename_i b hb
      obtain rfl := List.mem_singleton.1 hes
      exact ⟨_, h.working b hb⟩
    · cases hes

/-! ### Claims -/

/-- All that was exchanged in iterations. -/
def history (x : Runner) : List Exchange := x.logs.flatten

/-- Where each iteration has done a thing that none does twice, it is not done again. -/
theorem GoOn.filter_eq {ls ls' : List (List Exchange)} {p : Exchange → Bool} (h : GoOn ls ls')
    (hls : ∀ l ∈ ls, ∃ ex ∈ l, p ex = true) (hls' : ∀ l ∈ ls', (l.filter p).length ≤ 1) :
    ls'.flatten.filter p = ls.flatten.filter p := by
  induction h with
  | nil => rfl
  | @cons l l' ls ls' hl _ ih =>
    obtain ⟨⟨ex, hex, hp⟩, hls⟩ := List.forall_mem_cons.1 hls
    obtain ⟨hle, hls'⟩ := List.forall_mem_cons.1 hls'
    have hfilter : l.filter p <+: l'.filter p := hl.filter p
    have hpos : 0 < (l.filter p).length :=
      List.length_pos_of_mem (List.mem_filter.2 ⟨hex, hp⟩)
    have heq : l.filter p = l'.filter p :=
      hfilter.eq_of_length (by have := hfilter.length_le; omega)
    rw [List.flatten_cons, List.flatten_cons, List.filter_append, List.filter_append, heq,
      ih hls hls']

/-- **No further claim is made** once the worker shall stop and the iteration under way, if there is
one, has made its own. -/
theorem Traced.claims (h : x.Traced c) (hstop : x.stop = true)
    (hasked : ∀ es ∈ x.current, ∃ ex ∈ es, ex.asksForEvents = true) (ms : List Move) :
    (x.after c ms).history.filter Exchange.asksForEvents =
      x.history.filter Exchange.asksForEvents := by
  refine (goOn_after hstop ms).filter_eq (fun es hes => ?_) fun es hes => ?_
  · obtain hes | hes := List.mem_append.1 hes
    · obtain ⟨it, hit, rfl⟩ := List.mem_map.1 hes
      exact always_runOnce_asked c (h.past it hit) _ rfl
    · exact hasked es hes
  · obtain ⟨q, ht⟩ := (h.after ms).of_logs hes
    exact always_runOnce_once c ht

/-! ### Progress -/

/-- **An iteration ends**, if the publisher answers. -/
theorem exists_after_turns {n : Nat} {ws : List Surroundings}
    (hws : ∀ w ∈ ws, w.publisher.isSome) (hn : n ≤ ws.length) {b : Backoff}
    (hx : x.loop = .working b) (hrest : EndsWithin n x.rest) :
    ∃ o y, x.after c (ws.map .turn) = y ∧ y.rest = .done o ∧ y.loop = .working b ∧
      y.past = x.past ∧ x.log <+: y.log := by
  induction ws generalizing n x with
  | nil =>
    obtain rfl : n = 0 := Nat.le_zero.1 hn
    generalize hp : x.rest = p at hrest
    cases hrest with
    | done _ o => exact ⟨o, x, rfl, hp, hx, rfl, List.prefix_rfl⟩
  | cons w ws ih =>
    obtain ⟨hw, hws⟩ := List.forall_mem_cons.1 hws
    rw [List.map_cons, after_cons]
    generalize hp : x.rest = p at hrest
    cases hrest with
    | done _ o =>
      have hmove : x.move c (.turn w) = x := by simp only [move, hx, hp]
      rw [hmove]
      exact ih hws (Nat.zero_le _) hx (hp ▸ .done 0 o)
    | @ask n r k hr hk =>
      obtain ⟨a, ha⟩ := Option.isSome_iff_exists.1 (hr w x.store hw)
      have hmove : x.move c (.turn w) = { x with
          store := (w.answer r x.store).2, rest := k a, log := x.log ++ [⟨r, some a⟩] } := by
        simp only [move, hx, hp, ha, Program.resume]
      rw [hmove]
      obtain ⟨o, y, hy, hdone, hloop, hpast, hlog⟩ := ih hws (Nat.le_of_succ_le_succ hn)
        (x := { x with
          store := (w.answer r x.store).2, rest := k a, log := x.log ++ [⟨r, some a⟩] })
        hx (hk a)
      exact ⟨o, y, hy, hdone, hloop, hpast, (List.prefix_append _ _).trans hlog⟩

theorem Traced.ends (h : x.Traced c) {b : Backoff} (hx : x.loop = .working b)
    (hgiven : Log.claimed x.log ≠ []) (hrest : x.rest ≠ .crash) {ws : List Surroundings}
    (hws : ∀ w ∈ ws, w.publisher.isSome) (hlength : (Log.claimed x.log).length + 2 ≤ ws.length) :
    ∃ it, (x.after c (ws.map .turn ++ [.finish])).past = x.past ++ [it] ∧ Settled it.log := by
  obtain hnone | ⟨now, events, es, hshape, hevents⟩ := always_runOnce_given c (h.working b hx)
  · exact absurd hnone hgiven
  have hclaimed : Log.claimed x.log = events := by
    rw [hshape]
    exact hevents.publishing.claimed_eq now
  rw [hclaimed] at hlength
  obtain ⟨o, y, hy, hdone, hloop, hpast, more, hlog⟩ :=
    exists_after_turns (c := c) hws hlength hx (hevents.ends.resolve_left hrest)
  have hmove : (y.move c .finish).past =
      y.past ++ [⟨y.log, o, (y.loop.step c (.finish o)).delay⟩] := by
    simp only [move, hloop, hdone]
  refine ⟨⟨y.log, o, (y.loop.step c (.finish o)).delay⟩, ?_, ?_⟩
  · rw [after_concat, hy, hmove, hpast]
  · have htraced : y.Traced c := hy ▸ h.after _
    have htrace := htraced.working b hloop
    rw [hdone] at htrace
    refine settled_of_trace htrace fun hnone => hgiven ?_
    rw [← hlog, Log.claimed, List.filterMap_append, List.flatMap_append] at hnone
    exact (List.append_eq_nil_iff.1 hnone).1

end Runner

end Relay

end DoubleEntry
