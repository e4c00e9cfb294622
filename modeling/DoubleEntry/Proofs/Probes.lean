import DoubleEntry.Accounts.Breaker
import Mathlib.Data.List.Induction
import Mathlib.Logic.Function.Basic

/-!
# Probes of a half-open breaker

Calls through a breaker overlap: a call that was admitted while the breaker was closed, or in an
earlier half-open period, may end in a later one.  `Traffic` is a breaker with the calls in
progress, each with its permit and with the period that admitted it, which is counted apart from
the breaker's generations.

A call that is given up frees a place only if it is a probe of the present period
(`Traffic.breaker_drop`).  A call that ends is not looked at that way: a half-open breaker counts it
as a probe, whenever it was admitted.  So a call of the closed breaker can close a half-open one
(`Traffic.stray_success_closes`).  In a run in which only probes of the present period end while the
breaker is half open, the probes alone decide what becomes of it (`Traffic.probes_decide`).

## Main definitions

* `Breaker.Shift`: how the circuit and the generation move in a step.
* `Traffic`, `Traffic.Move`, `Traffic.step`, `Traffic.run`: a breaker with its calls.
* `Traffic.IsProbe`: a call is a probe of the present half-open period.
* `Traffic.Timely`: a run in which only such calls end while the breaker is half open.
* `Traffic.ProbesDecide`: only the probes of the present period bear on a move.
-/

namespace DoubleEntry

/-! ### Steps of a breaker -/

namespace Breaker

variable {c : BreakerConfig} {now : Nat} {b : Breaker}

/-- How the circuit and the generation move in a step. -/
inductive Shift (b b' : Breaker) : Prop
  | stay (circuit : b'.circuit = b.circuit) (generation : b'.generation = b.generation)
  | cool (opened : b.circuit = .opened) (halfOpen : b'.circuit = .halfOpen)
      (generation : b'.generation = b.generation)
  | close (halfOpen : b.circuit = .halfOpen) (closed : b'.circuit = .closed)
      (generation : b'.generation = b.generation)
  | trip (running : b.circuit ≠ .opened) (opened : b'.circuit = .opened)
      (generation : b'.generation = b.generation + 1)

theorem refresh_of_halfOpen (h : b.circuit = .halfOpen) : b.refresh c now = b := by
  simp [refresh, h]

theorem shift_refresh (c : BreakerConfig) (now : Nat) (b : Breaker) :
    Shift b (b.refresh c now) := by
  unfold refresh
  split
  · rename_i h
    split
    · exact .cool h rfl rfl
    · exact .stay rfl rfl
  · split <;> exact .stay rfl rfl
  · exact .stay rfl rfl

theorem acquire_eq_refresh (c : BreakerConfig) (now : Nat) (b : Breaker) :
    (b.acquire c now).2.circuit = (b.refresh c now).circuit ∧
      (b.acquire c now).2.generation = (b.refresh c now).generation ∧
      (b.acquire c now).2.successes = (b.refresh c now).successes := by
  simp only [acquire]
  split
  · exact ⟨rfl, rfl, rfl⟩
  · exact ⟨rfl, rfl, rfl⟩
  · split <;> exact ⟨rfl, rfl, rfl⟩

theorem acquire_eq_some {p : Permit} (h : (b.acquire c now).1 = some p) :
    p = none ∧ (b.acquire c now).2.circuit = .closed ∨
      p = some (b.acquire c now).2.generation ∧ (b.acquire c now).2.circuit = .halfOpen := by
  simp only [acquire] at h ⊢
  split at h
  · rename_i hc
    cases h
    exact .inl ⟨rfl, hc⟩
  · cases h
  · rename_i hc
    split at h
    · cases h
    · rename_i hlt
      cases h
      simp [hc, hlt]

theorem shift_acquire (c : BreakerConfig) (now : Nat) (b : Breaker) :
    Shift b (b.acquire c now).2 := by
  obtain ⟨hcircuit, hgeneration, -⟩ := acquire_eq_refresh c now b
  cases shift_refresh c now b with
  | stay h h' => exact .stay (hcircuit.trans h) (hgeneration.trans h')
  | cool h h' h'' => exact .cool h (hcircuit.trans h') (hgeneration.trans h'')
  | close h h' h'' => exact .close h (hcircuit.trans h') (hgeneration.trans h'')
  | trip h h' h'' => exact .trip h (hcircuit.trans h') (hgeneration.trans h'')

theorem shift_succeed (c : BreakerConfig) (now : Nat) (b : Breaker) :
    Shift b (b.succeed c now) := by
  unfold succeed
  split
  · exact .stay rfl rfl
  · rename_i h
    dsimp only
    split
    · exact .close h rfl rfl
    · exact .stay rfl rfl
  · exact .stay rfl rfl

theorem shift_fail (c : BreakerConfig) (now : Nat) (b : Breaker) : Shift b (b.fail c now) := by
  unfold fail
  split
  · rename_i h
    dsimp only
    split
    · exact .trip (by simp [h]) rfl rfl
    · exact .stay rfl rfl
  · rename_i h
    exact .trip (by simp [h]) rfl rfl
  · exact .stay rfl rfl

theorem shift_abandon (p : Permit) (b : Breaker) : Shift b (b.abandon p) := by
  unfold abandon
  split
  · exact .stay rfl rfl
  · split <;> exact .stay rfl rfl

theorem shift_step (c : BreakerConfig) (now : Nat) (e : Event) (b : Breaker) :
    Shift b (b.step c now e) := by
  cases e with
  | observe => exact shift_refresh c now b
  | call => exact shift_acquire c now b
  | finish p ok =>
    cases ok with
    | true => exact shift_succeed c now b
    | false => exact shift_fail c now b
  | abandon p => exact shift_abandon p b

theorem successes_refresh (h : b.circuit ≠ .halfOpen)
    (h' : (b.refresh c now).circuit = .halfOpen) : (b.refresh c now).successes = 0 := by
  unfold refresh at h' ⊢
  split
  · split
    · rfl
    · simp_all
  · split <;> simp_all
  · contradiction

/-- A half-open period begins when someone looks at the breaker or asks for a call. -/
theorem refresh_of_begins (e : Event) (h : b.circuit ≠ .halfOpen)
    (h' : (b.step c now e).circuit = .halfOpen) :
    (b.refresh c now).circuit = .halfOpen ∧ (e = .observe ∨ e = .call) := by
  cases e with
  | observe => exact ⟨h', .inl rfl⟩
  | call => exact ⟨(acquire_eq_refresh c now b).1 ▸ h', .inr rfl⟩
  | finish p ok =>
    refine absurd h' ?_
    cases shift_step c now (.finish p ok) b with
    | stay hc _ => exact hc ▸ h
    | cool opened _ _ => simp [step, finish, succeed, fail, opened]
    | close halfOpen _ _ => exact absurd halfOpen h
    | trip _ opened _ => simp [opened]
  | abandon p =>
    refine absurd h' ?_
    simp only [step, abandon]
    split
    · exact h
    · simp [h]

theorem successes_step (e : Event) (h : b.circuit ≠ .halfOpen)
    (h' : (b.step c now e).circuit = .halfOpen) : (b.step c now e).successes = 0 := by
  obtain ⟨hr, rfl | rfl⟩ := refresh_of_begins e h h'
  · exact successes_refresh h hr
  · exact (acquire_eq_refresh c now b).2.2.trans (successes_refresh h hr)

theorem step_finish_of_halfOpen (now : Nat) (p : Permit) {ok : Bool} (h : b.circuit = .halfOpen)
    (h' : (b.step c now (.finish p ok)).circuit = .halfOpen) :
    ok = true ∧ b.successes + 1 < c.maxProbes ∧
      b.step c now (.finish p ok) = { b with successes := b.successes + 1 } := by
  cases ok with
  | false => simp [step, finish, fail, h, trip] at h'
  | true =>
    simp only [step, finish, succeed, h, if_true] at h' ⊢
    split
    · simp_all
    · rename_i hfew
      exact ⟨trivial, Nat.lt_of_not_le hfew, rfl⟩

@[simp]
theorem successes_abandon (p : Permit) (b : Breaker) : (b.abandon p).successes = b.successes := by
  unfold abandon
  split
  · rfl
  · split <;> rfl

end Breaker

/-! ### Calls in progress -/

/-- A call in progress through a breaker. -/
structure Traffic.Call where
  permit : Permit
  /-- The half-open period that admitted it, counted from one; none if the breaker was closed. -/
  period : Option Nat

/-- A breaker with the calls in progress through it, by name. -/
structure Traffic (κ : Type) where
  breaker : Breaker
  /-- Half-open periods that have begun so far. -/
  periods : Nat
  /-- Probes of the present half-open period that have succeeded. -/
  passed : Nat
  calls : κ → Option Traffic.Call

namespace Traffic

variable {κ : Type}

/-- What happens to the traffic through a breaker. -/
inductive Move (κ : Type) where
  /-- Someone looks at the breaker. -/
  | observe
  /-- A call asks to be admitted. -/
  | start (k : κ)
  /-- A call in progress ends. -/
  | finish (k : κ) (ok : Bool)
  /-- A call in progress is dropped before it ends. -/
  | drop (k : κ)

/-- The call that a move is about. -/
def Move.call? : Move κ → Option κ
  | observe => none
  | start k => some k
  | finish k _ => some k
  | drop k => some k

/-- The call is a probe of the present half-open period. -/
def IsProbe (t : Traffic κ) (k : κ) : Prop :=
  t.breaker.circuit = .halfOpen ∧ (t.calls k).bind (·.period) = some t.periods

instance (t : Traffic κ) (k : κ) : Decidable (t.IsProbe k) :=
  inferInstanceAs (Decidable (_ ∧ _))

/-- What a move asks of the breaker; nothing if its name is not that of a call in progress, or is
taken by one. -/
def event? (t : Traffic κ) : Move κ → Option Breaker.Event
  | .observe => some .observe
  | .start k => if (t.calls k).isNone then some .call else none
  | .finish k ok => (t.calls k).map fun call => .finish call.permit ok
  | .drop k => (t.calls k).map fun call => .abandon call.permit

/-- The half-open periods that have begun when the breaker is in its next state. -/
def periodsAt (t : Traffic κ) (b : Breaker) : Nat :=
  if b.circuit = .halfOpen ∧ t.breaker.circuit ≠ .halfOpen then t.periods + 1 else t.periods

/-- The successes of the present period when the breaker is in its next state. -/
def passedAt (t : Traffic κ) (b : Breaker) (m : Move κ) : Nat :=
  if b.circuit = .halfOpen ∧ t.breaker.circuit ≠ .halfOpen then 0
  else match m with
    | .finish k true => if t.IsProbe k then t.passed + 1 else t.passed
    | _ => t.passed

/-- The call that a permit lets through. -/
def letIn (t : Traffic κ) (b : Breaker) (p : Permit) : Call :=
  ⟨p, if b.circuit = .halfOpen then some (t.periodsAt b) else none⟩

/-! ### Permits and periods -/

/-- The permit of a call tells the present half-open period from the earlier ones. -/
inductive Call.Known (b : Breaker) (periods : Nat) : Call → Prop
  | through : Known b periods ⟨none, none⟩
  | probe {g n : Nat} (generation_le : g ≤ b.generation) (period_le : n ≤ periods)
      (opened : b.circuit = .opened → g < b.generation)
      (halfOpen : b.circuit = .halfOpen → (g = b.generation ↔ n = periods)) :
      Known b periods ⟨some g, some n⟩

/-- Every call in progress has a permit that tells its period. -/
def Kept (t : Traffic κ) : Prop :=
  ∀ k call, t.calls k = some call → call.Known t.breaker t.periods

theorem Call.Known.shift {t : Traffic κ} {call : Call} {b : Breaker}
    (h : call.Known t.breaker t.periods) (hb : t.breaker.Shift b) :
    call.Known b (t.periodsAt b) := by
  cases h with
  | through => exact .through
  | probe hg hn ho hh =>
    cases hb with
    | stay hc hgen =>
      have hp : t.periodsAt b = t.periods := by
        unfold periodsAt
        rw [if_neg (by simp [hc])]
      exact .probe (hgen ▸ hg) (hp ▸ hn) (by simpa [hc, hgen] using ho)
        (by simpa [hc, hgen, hp] using hh)
    | cool hopen hhalf hgen =>
      have hp : t.periodsAt b = t.periods + 1 := by
        unfold periodsAt
        rw [if_pos ⟨hhalf, by simp [hopen]⟩]
      -- a new period: no call in progress is of it
      have := ho hopen
      exact .probe (by omega) (by omega) (by simp [hhalf]) (fun _ => by omega)
    | close hhalf hclosed hgen =>
      have hp : t.periodsAt b = t.periods := by
        unfold periodsAt
        rw [if_neg (by simp [hclosed])]
      exact .probe (hgen ▸ hg) (hp ▸ hn) (by simp [hclosed]) (by simp [hclosed])
    | trip hrun hopen hgen =>
      have hp : t.periodsAt b = t.periods := by
        unfold periodsAt
        rw [if_neg (by simp [hopen])]
      exact .probe (by omega) (hp ▸ hn) (fun _ => by omega) (by simp [hopen])

theorem Call.known_letIn {t : Traffic κ} {c : BreakerConfig} {now : Nat} {p : Permit}
    (h : (t.breaker.acquire c now).1 = some p) :
    (t.letIn (t.breaker.acquire c now).2 p).Known (t.breaker.acquire c now).2
      (t.periodsAt (t.breaker.acquire c now).2) := by
  unfold letIn
  obtain ⟨rfl, hc⟩ | ⟨rfl, hc⟩ := Breaker.acquire_eq_some h
  · rw [hc, if_neg (by simp)]
    exact .through
  · rw [hc, if_pos rfl]
    exact .probe (Nat.le_refl _) (Nat.le_refl _) (by simp [hc]) (by simp)

/-- A call in progress that is not a probe of the present period holds the permit of another. -/
theorem Kept.permit_ne {t : Traffic κ} (h : t.Kept) {k : κ} {call : Call}
    (hk : t.calls k = some call) (hc : t.breaker.circuit = .halfOpen) (hprobe : ¬ t.IsProbe k) :
    call.permit ≠ some t.breaker.generation := by
  intro hp
  cases h k call hk with
  | through => cases hp
  | probe _ _ _ hh =>
    cases hp
    exact hprobe ⟨hc, by simp [hk, (hh hc).1 rfl]⟩

/-! ### Moves -/

variable [DecidableEq κ]

/-- The calls in progress when the breaker is in its next state. -/
def callsAt (c : BreakerConfig) (now : Nat) (t : Traffic κ) (b : Breaker) :
    Move κ → κ → Option Call
  | .observe => t.calls
  | .start k => Function.update t.calls k ((t.breaker.acquire c now).1.map (t.letIn b))
  | .finish k _ => Function.update t.calls k none
  | .drop k => Function.update t.calls k none

/-- A move at a time. -/
def step (c : BreakerConfig) (t : Traffic κ) (m : Nat × Move κ) : Traffic κ :=
  match t.event? m.2 with
  | none => t
  | some e =>
    let b := t.breaker.step c m.1 e
    ⟨b, t.periodsAt b, t.passedAt b m.2, t.callsAt c m.1 b m.2⟩

/-- A closed breaker with no calls. -/
def start (now : Nat) : Traffic κ := ⟨.start now, 0, 0, fun _ => none⟩

/-- Moves one after the other. -/
def run (c : BreakerConfig) (t : Traffic κ) (ms : List (Nat × Move κ)) : Traffic κ :=
  ms.foldl (step c) t

/-- If the move ends a call while the breaker is half open, it is a probe of the period. -/
def InTime (t : Traffic κ) (m : Nat × Move κ) : Prop :=
  match m.2 with
  | .finish k _ => t.breaker.circuit = .halfOpen → (t.calls k).isSome → t.IsProbe k
  | _ => True

instance (t : Traffic κ) : (m : Nat × Move κ) → Decidable (t.InTime m)
  | (_, .finish _ _) => inferInstanceAs (Decidable (_ → _ → _))
  | (_, .observe) => isTrue trivial
  | (_, .start _) => isTrue trivial
  | (_, .drop _) => isTrue trivial

/-- A run in which only probes of the present period end while the breaker is half open. -/
def Timely (c : BreakerConfig) (t : Traffic κ) : List (Nat × Move κ) → Prop
  | [] => True
  | m :: ms => t.InTime m ∧ (t.step c m).Timely c ms

instance instDecidableTimely (c : BreakerConfig) : (t : Traffic κ) → (ms : List (Nat × Move κ)) →
    Decidable (t.Timely c ms)
  | _, [] => isTrue trivial
  | t, m :: ms =>
    have := instDecidableTimely c (t.step c m) ms
    inferInstanceAs (Decidable (_ ∧ _))

/-- Only the probes of the present half-open period bear on a move. -/
structure ProbesDecide (c : BreakerConfig) (t : Traffic κ) (m : Nat × Move κ) : Prop where
  /-- What changes a half-open breaker is the end of a probe of the period, or a new probe. -/
  influence : t.breaker.circuit = .halfOpen → (t.step c m).breaker ≠ t.breaker →
    ∃ k, m.2.call? = some k ∧ (t.IsProbe k ∨ t.calls k = none ∧ (t.step c m).IsProbe k)
  /-- It closes only by the success of a probe of the period, the last of as many as it takes. -/
  closes : t.breaker.circuit ≠ .closed → (t.step c m).breaker.circuit = .closed →
    ∃ k, m.2 = .finish k true ∧ t.IsProbe k ∧ t.passed + 1 = c.maxProbes
  /-- It opens again only by the failure of a probe of the period. -/
  reopens : t.breaker.circuit = .halfOpen → (t.step c m).breaker.circuit = .opened →
    ∃ k, m.2 = .finish k false ∧ t.IsProbe k
  /-- A call that was admitted earlier changes nothing when it ends or is dropped. -/
  stale : t.breaker.circuit = .halfOpen → ∀ k call, m.2 = .drop k ∨ (∃ ok, m.2 = .finish k ok) →
    t.calls k = some call → ¬ t.IsProbe k → (t.step c m).breaker = t.breaker

variable {c : BreakerConfig} {t : Traffic κ} {m : Nat × Move κ} {ms : List (Nat × Move κ)}

theorem step_of_event {e : Breaker.Event} (h : t.event? m.2 = some e) :
    t.step c m = ⟨t.breaker.step c m.1 e, t.periodsAt (t.breaker.step c m.1 e),
      t.passedAt (t.breaker.step c m.1 e) m.2, t.callsAt c m.1 (t.breaker.step c m.1 e) m.2⟩ := by
  simp [step, h]

theorem step_of_noEvent (h : t.event? m.2 = none) : t.step c m = t := by
  simp [step, h]

omit [DecidableEq κ] in
theorem event?_start {k : κ} (h : t.calls k = none) : t.event? (.start k) = some .call := by
  simp [event?, h]

omit [DecidableEq κ] in
theorem event?_finish {k : κ} {call : Call} (h : t.calls k = some call) (ok : Bool) :
    t.event? (.finish k ok) = some (.finish call.permit ok) := by
  simp [event?, h]

omit [DecidableEq κ] in
theorem event?_drop {k : κ} {call : Call} (h : t.calls k = some call) :
    t.event? (.drop k) = some (.abandon call.permit) := by
  simp [event?, h]

/-- A move changes nothing, or someone looks at the breaker, a call with a free name asks to be
admitted, or a call in progress ends or is dropped. -/
@[elab_as_elim]
theorem move_cases (c : BreakerConfig) (t : Traffic κ) {motive : Nat × Move κ → Prop}
    (idle : ∀ m, t.step c m = t → motive m)
    (observe : ∀ now, motive (now, .observe))
    (start : ∀ now k, t.calls k = none → motive (now, .start k))
    (finish : ∀ now k ok call, t.calls k = some call → motive (now, .finish k ok))
    (drop : ∀ now k call, t.calls k = some call → motive (now, .drop k)) (m : Nat × Move κ) :
    motive m := by
  obtain ⟨now, m⟩ := m
  cases m with
  | observe => exact observe now
  | start k =>
    cases hk : t.calls k with
    | none => exact start now k hk
    | some call => exact idle _ (step_of_noEvent (by simp [event?, hk]))
  | finish k ok =>
    cases hk : t.calls k with
    | none => exact idle _ (step_of_noEvent (by simp [event?, hk]))
    | some call => exact finish now k ok call hk
  | drop k =>
    cases hk : t.calls k with
    | none => exact idle _ (step_of_noEvent (by simp [event?, hk]))
    | some call => exact drop now k call hk

theorem Kept.known_step (h : t.Kept) {k : κ} {call : Call} (hk : t.calls k = some call) :
    call.Known (t.step c m).breaker (t.step c m).periods := by
  cases he : t.event? m.2 with
  | none =>
    rw [step_of_noEvent he]
    exact h k call hk
  | some e =>
    rw [step_of_event he]
    exact (h k call hk).shift (Breaker.shift_step c m.1 e t.breaker)

theorem Kept.step (h : t.Kept) (c : BreakerConfig) (m : Nat × Move κ) : (t.step c m).Kept := by
  intro k call hcall
  induction m using t.move_cases c with
  | idle m hsame =>
    rw [hsame] at hcall ⊢
    exact h k call hcall
  | observe now => exact h.known_step hcall
  | start now k' hfree =>
    have hstep := step_of_event (c := c) (m := (now, .start k')) (event?_start hfree)
    by_cases hk : k = k'
    · subst hk
      simp only [hstep, callsAt, Function.update_self] at hcall
      obtain ⟨p, hp, rfl⟩ := Option.map_eq_some_iff.1 hcall
      rw [hstep]
      exact Call.known_letIn hp
    · simp only [hstep, callsAt, Function.update_of_ne hk] at hcall
      exact h.known_step hcall
  | finish now k' ok call' hk' =>
    rw [step_of_event (event?_finish hk' ok)] at hcall
    simp only [callsAt, Function.update_apply] at hcall
    split at hcall
    · cases hcall
    · exact h.known_step hcall
  | drop now k' call' hk' =>
    rw [step_of_event (event?_drop hk')] at hcall
    simp only [callsAt, Function.update_apply] at hcall
    split at hcall
    · cases hcall
    · exact h.known_step hcall

theorem kept_run (c : BreakerConfig) (now : Nat) (ms : List (Nat × Move κ)) :
    ((start now : Traffic κ).run c ms).Kept := by
  induction ms using List.reverseRecOn with
  | nil =>
    intro k call h
    cases h
  | append_singleton ms m ih =>
    rw [run, List.foldl_append]
    exact ih.step c m

theorem breaker_drop (h : t.Kept) {k : κ} {call : Call} (hm : m.2 = .drop k)
    (hk : t.calls k = some call) (hprobe : ¬ t.IsProbe k) :
    (t.step c m).breaker = t.breaker := by
  have he : t.event? m.2 = some (.abandon call.permit) := hm ▸ event?_drop hk
  rw [step_of_event he]
  simp only [Breaker.step, Breaker.abandon]
  split
  · rfl
  · rename_i g hp
    refine if_neg fun ⟨hc, hg⟩ => ?_
    exact h.permit_ne hk hc hprobe (hg ▸ hp)

/-! ### Counting successes -/

/-- While the breaker is half open it counts the successes of the probes of the period, and there
are fewer than it takes to close. -/
def Counted (c : BreakerConfig) (t : Traffic κ) : Prop :=
  t.breaker.circuit = .halfOpen → t.breaker.successes = t.passed ∧ t.passed < c.maxProbes

/-- A half-open period begins with no success counted, neither of all calls nor of the probes. -/
theorem counted_of_begins (hmax : 1 ≤ c.maxProbes) (hb : t.breaker.circuit ≠ .halfOpen) :
    (t.step c m).Counted c := by
  intro hhalf
  cases he : t.event? m.2 with
  | none => exact absurd (step_of_noEvent (c := c) he ▸ hhalf) hb
  | some e =>
    rw [step_of_event he] at hhalf ⊢
    have hbegun : (t.breaker.step c m.1 e).circuit = .halfOpen ∧
        t.breaker.circuit ≠ .halfOpen := ⟨hhalf, hb⟩
    simp only [passedAt, if_pos hbegun]
    exact ⟨Breaker.successes_step e hb hhalf, hmax⟩

theorem Counted.step (hmax : 1 ≤ c.maxProbes) (h : t.Counted c) (hm : t.InTime m) :
    (t.step c m).Counted c := by
  by_cases hb : t.breaker.circuit = .halfOpen
  swap
  · exact counted_of_begins hmax hb
  intro hhalf
  obtain ⟨hsucc, hlt⟩ := h hb
  induction m using t.move_cases c with
  | idle m hsame =>
    rw [hsame]
    exact ⟨hsucc, hlt⟩
  | observe now =>
    rw [step_of_event (e := .observe) rfl]
    simp only [passedAt, hb, Breaker.step, Breaker.refresh_of_halfOpen hb]
    exact ⟨hsucc, hlt⟩
  | start now k hk =>
    rw [step_of_event (event?_start hk)]
    obtain ⟨-, -, hs⟩ := Breaker.acquire_eq_refresh c now t.breaker
    rw [Breaker.refresh_of_halfOpen hb] at hs
    simp only [passedAt, hb, ne_eq, not_true_eq_false, and_false, if_false]
    exact ⟨hs.trans hsucc, hlt⟩
  | finish now k ok call hk =>
    have hprobe : t.IsProbe k := hm hb (by simp [hk])
    rw [step_of_event (event?_finish hk ok)] at hhalf ⊢
    obtain ⟨rfl, hfew, hbreaker⟩ :=
      Breaker.step_finish_of_halfOpen now call.permit hb hhalf
    simp only [hbreaker, passedAt, hb, ne_eq, not_true_eq_false, and_false, if_false, hprobe,
      if_true]
    omega
  | drop now k call hk =>
    rw [step_of_event (event?_drop hk)]
    simp only [passedAt, hb, ne_eq, not_true_eq_false, and_false, if_false, Breaker.step,
      Breaker.successes_abandon]
    exact ⟨hsucc, hlt⟩

/-! ### What the probes decide -/

/-- What a move does to a half-open breaker, if no call of another time ends. -/
inductive ProbeStep (c : BreakerConfig) (t : Traffic κ) : Nat × Move κ → Breaker → Prop
  | idle (m : Nat × Move κ) : ProbeStep c t m t.breaker
  | admitted {now : Nat} {k : κ} (free : t.calls k = none)
      (probe : (t.step c (now, .start k)).IsProbe k) :
      ProbeStep c t (now, .start k) { t.breaker with admitted := t.breaker.admitted + 1 }
  | success {now : Nat} {k : κ} (probe : t.IsProbe k) :
      ProbeStep c t (now, .finish k true) (t.breaker.succeed c now)
  | failure {now : Nat} {k : κ} (probe : t.IsProbe k) :
      ProbeStep c t (now, .finish k false) (t.breaker.trip now)
  | dropped {now : Nat} {k : κ} (probe : t.IsProbe k) :
      ProbeStep c t (now, .drop k) { t.breaker with admitted := t.breaker.admitted - 1 }

theorem probeStep_start (hb : t.breaker.circuit = .halfOpen) (now : Nat) {k : κ}
    (hk : t.calls k = none) :
    t.ProbeStep c (now, .start k) (t.step c (now, .start k)).breaker := by
  have hstep := step_of_event (c := c) (m := (now, .start k)) (event?_start hk)
  by_cases hfull : c.maxProbes ≤ t.breaker.admitted
  · have hsame : (t.step c (now, .start k)).breaker = t.breaker := by
      simp [hstep, Breaker.step, Breaker.acquire, Breaker.refresh_of_halfOpen hb, hb, hfull]
    rw [hsame]
    exact .idle _
  · have hnext : t.breaker.acquire c now = (some (some t.breaker.generation),
        { t.breaker with admitted := t.breaker.admitted + 1 }) := by
      simp [Breaker.acquire, Breaker.refresh_of_halfOpen hb, hb, hfull]
    have hprobe : (t.step c (now, .start k)).IsProbe k := by
      simp [hstep, IsProbe, callsAt, Breaker.step, hnext, letIn, hb]
    have hbreaker : (t.step c (now, .start k)).breaker =
        { t.breaker with admitted := t.breaker.admitted + 1 } := by
      simp [hstep, Breaker.step, hnext]
    rw [hbreaker]
    exact .admitted hk hprobe

theorem probeStep (h : t.Kept) (hm : t.InTime m) (hb : t.breaker.circuit = .halfOpen) :
    t.ProbeStep c m (t.step c m).breaker := by
  induction m using t.move_cases c with
  | idle m hsame =>
    rw [hsame]
    exact .idle m
  | observe now =>
    rw [step_of_event (e := .observe) rfl]
    simp only [Breaker.step, Breaker.refresh_of_halfOpen hb]
    exact .idle _
  | start now k hk => exact probeStep_start hb now hk
  | finish now k ok call hk =>
    have hprobe : t.IsProbe k := hm hb (by simp [hk])
    rw [step_of_event (event?_finish hk ok)]
    cases ok with
    | true => exact .success hprobe
    | false =>
      simp only [Breaker.step, Breaker.finish, Breaker.fail, hb, Bool.false_eq_true, if_false]
      exact .failure hprobe
  | drop now k call hk =>
    by_cases hprobe : t.IsProbe k
    · rw [step_of_event (event?_drop hk)]
      simp only [Breaker.step, Breaker.abandon]
      split
      · exact .idle _
      · split
        · exact .dropped hprobe
        · exact .idle _
    · rw [breaker_drop h rfl hk hprobe]
      exact .idle _

theorem circuit_ne_closed_of_opened (hb : t.breaker.circuit = .opened) :
    (t.step c m).breaker.circuit ≠ .closed := by
  cases he : t.event? m.2 with
  | none => simp [step_of_noEvent he, hb]
  | some e =>
    rw [step_of_event he]
    cases Breaker.shift_step c m.1 e t.breaker with
    | stay hc _ => simp [hc, hb]
    | cool _ hc _ => simp [hc]
    | close hc _ _ => simp [hb] at hc
    | trip hc _ _ => exact absurd hb hc

theorem probesDecide (h : t.Kept) (hcount : t.Counted c) (hm : t.InTime m) :
    t.ProbesDecide c m where
  influence hb hne := by
    have hstep : t.ProbeStep c m (t.step c m).breaker := probeStep h hm hb
    generalize (t.step c m).breaker = b at hstep hne
    cases hstep with
    | idle => exact absurd rfl hne
    | admitted free probe => exact ⟨_, rfl, .inr ⟨free, probe⟩⟩
    | success probe => exact ⟨_, rfl, .inl probe⟩
    | failure probe => exact ⟨_, rfl, .inl probe⟩
    | dropped probe => exact ⟨_, rfl, .inl probe⟩
  closes hb hclosed := by
    have hhalf : t.breaker.circuit = .halfOpen := by
      cases hc : t.breaker.circuit with
      | closed => exact absurd hc hb
      | opened => exact absurd hclosed (circuit_ne_closed_of_opened hc)
      | halfOpen => rfl
    obtain ⟨hsucc, hlt⟩ := hcount hhalf
    have hstep : t.ProbeStep c m (t.step c m).breaker := probeStep h hm hhalf
    generalize (t.step c m).breaker = b at hstep hclosed
    cases hstep with
    | idle => exact absurd hclosed hb
    | admitted => exact absurd hclosed hb
    | success probe =>
      refine ⟨_, rfl, probe, ?_⟩
      simp only [Breaker.succeed, hhalf] at hclosed
      split at hclosed
      · omega
      · simp at hclosed
    | failure probe => simp [Breaker.trip] at hclosed
    | dropped => exact absurd hclosed hb
  reopens hb hopen := by
    have hstep : t.ProbeStep c m (t.step c m).breaker := probeStep h hm hb
    generalize (t.step c m).breaker = b at hstep hopen
    cases hstep with
    | idle => simp [hb] at hopen
    | admitted => simp [hb] at hopen
    | success probe =>
      simp only [Breaker.succeed, hb] at hopen
      split at hopen <;> simp_all
    | failure probe => exact ⟨_, rfl, probe⟩
    | dropped => simp [hb] at hopen
  stale hb k call hends hk hprobe := by
    have hstep : t.ProbeStep c m (t.step c m).breaker := probeStep h hm hb
    generalize (t.step c m).breaker = b at hstep ⊢
    cases hstep with
    | idle => rfl
    | admitted => simp at hends
    | success probe => simp_all
    | failure probe => simp_all
    | dropped probe => simp_all

theorem Timely.append_iff {ms' : List (Nat × Move κ)} :
    t.Timely c (ms ++ ms') ↔ t.Timely c ms ∧ (t.run c ms).Timely c ms' := by
  induction ms generalizing t with
  | nil => simp [Timely, run]
  | cons m ms ih => simp [Timely, run, ih, and_assoc]

theorem counted_run (hmax : 1 ≤ c.maxProbes) (now : Nat) (ms : List (Nat × Move κ))
    (timely : (start now : Traffic κ).Timely c ms) :
    ((start now : Traffic κ).run c ms).Counted c := by
  induction ms using List.reverseRecOn with
  | nil =>
    intro h
    cases h
  | append_singleton ms m ih =>
    obtain ⟨hms, hm, -⟩ := Timely.append_iff.1 timely
    rw [run, List.foldl_append]
    exact (ih hms).step hmax hm

/-- Only the probes of the present half-open period influence a half-open breaker, close it and open
it again, in every run in which no call of another time ends while it is half open. -/
theorem probes_decide (hmax : 1 ≤ c.maxProbes) (now : Nat) (ms' : List (Nat × Move κ))
    (timely : (start now : Traffic κ).Timely c (ms ++ m :: ms')) :
    ((start now : Traffic κ).run c ms).ProbesDecide c m := by
  obtain ⟨hms, hm, -⟩ := Timely.append_iff.1 timely
  exact probesDecide (kept_run c now ms) (counted_run hmax now ms hms) hm

/-- A breaker that opens at the first failure and closes with the first probe. -/
def oneProbe : BreakerConfig := { failureThreshold := 1, cooldown := 10, maxProbes := 1 }

/-- Two calls start, the second one fails and the breaker cools down; then a third call starts. -/
def overlap : List (Nat × Move Nat) :=
  [(0, .start 0), (0, .start 1), (1, .finish 1 false), (11, .start 2)]

/-- The breaker closes by the success of its probe. -/
theorem probe_success_closes :
    1 ≤ oneProbe.maxProbes ∧ (start 0).Timely oneProbe (overlap ++ [(12, .finish 2 true)]) ∧
      ((start 0).run oneProbe overlap).breaker.circuit = .halfOpen ∧
      (((start 0).run oneProbe overlap).step oneProbe (12, .finish 2 true)).breaker.circuit =
        .closed ∧
      ((start 0).run oneProbe overlap).ProbesDecide oneProbe (12, .finish 2 true) :=
  ⟨by decide, by decide, by decide, by decide,
    probes_decide (by decide) 0 [] (by decide)⟩

/-- The success of the call that was admitted before the breaker opened closes it as well. -/
theorem stray_success_closes :
    ¬ ∀ (c : BreakerConfig) (now : Nat) (ms : List (Nat × Move Nat)) (m : Nat × Move Nat),
      1 ≤ c.maxProbes → ((start now).run c ms).ProbesDecide c m := by
  intro h
  have hdecide := h oneProbe 0 overlap (12, .finish 0 true) (by decide)
  obtain ⟨k, hk, hprobe, -⟩ := hdecide.closes (by decide) (by decide)
  cases hk
  exact absurd hprobe (by decide)

end Traffic

end DoubleEntry
