import DoubleEntry.Proofs.Recovery
import Mathlib.Data.List.Count

/-!
# Limits of a breaker

Three bounds hold in every run of the calls through a breaker, in whatever order they start, end and
are dropped (`Traffic.limits`).

* From the time it opens until it has cooled down a breaker admits no call.  Nothing at all changes
  it meanwhile (`Breaker.Resting.step_eq`).
* In one half-open period it admits no more calls than it has places for probes, those apart that
  are dropped in the period.  Each of the others has taken a place and not given it back
  (`Traffic.Seated`).
* A closed breaker opens only by a failure that is the last of as many in a row as it takes.  What
  it counts while it is closed are the failures since the row was broken last (`Traffic.Streak`).

## Main definitions

* `Traffic.Moment`, `Traffic.moments`: the moves of a run, each with the traffic before and after
  it.
* `Traffic.Moment.Trips`, `Traffic.Moment.Admits`, `Traffic.Moment.Breaks`: what a move does.
* `Traffic.Moment.admitsTo`, `Traffic.Moment.dropsFrom`, `Traffic.Moment.fails`: the moves that are
  counted.
* `Traffic.Limits`: the three bounds.
-/

namespace DoubleEntry

namespace Breaker

variable {c : BreakerConfig} {now opened : Nat} {b : Breaker}

/-! ### A breaker that rests -/

/-- The breaker is open since a time. -/
structure Resting (b : Breaker) (opened : Nat) : Prop where
  circuit : b.circuit = .opened
  openedAt : b.openedAt = some opened

theorem Resting.refresh_eq (h : b.Resting opened) (hpast : opened ≤ now)
    (hnow : now < opened + c.cooldown) : b.refresh c now = b := by
  have hwarm : ¬ c.cooldown ≤ now - opened := by omega
  simp [refresh, h.circuit, h.openedAt, hwarm]

theorem Resting.acquire_eq (h : b.Resting opened) (hpast : opened ≤ now)
    (hnow : now < opened + c.cooldown) : b.acquire c now = (none, b) := by
  simp [acquire, h.refresh_eq hpast hnow, h.circuit]

theorem Resting.step_eq (h : b.Resting opened) (hpast : opened ≤ now)
    (hnow : now < opened + c.cooldown) (e : Event) : b.step c now e = b := by
  cases e with
  | observe => exact h.refresh_eq hpast hnow
  | call => exact congrArg Prod.snd (h.acquire_eq hpast hnow)
  | finish p ok => cases ok <;> simp [step, finish, succeed, fail, h.circuit]
  | abandon p => cases p <;> simp [step, abandon, h.circuit]

theorem circuit_refresh (h : b.circuit ≠ .opened) : (b.refresh c now).circuit = b.circuit := by
  unfold refresh
  split
  · contradiction
  · split <;> rfl
  · rfl

@[simp]
theorem circuit_abandon (p : Permit) (b : Breaker) : (b.abandon p).circuit = b.circuit := by
  unfold abandon
  split
  · rfl
  · split <;> rfl

theorem circuit_succeed_ne_opened (h : b.circuit ≠ .opened) :
    (b.succeed c now).circuit ≠ .opened := by
  cases hb : b.circuit with
  | opened => exact absurd hb h
  | closed => simp [succeed, hb]
  | halfOpen =>
    simp only [succeed, hb]
    split <;> simp

/-- A breaker opens only by a failure, and rests from that time on. -/
theorem resting_of_trip (e : Event) (h : b.circuit ≠ .opened)
    (h' : (b.step c now e).circuit = .opened) :
    (b.step c now e).Resting now ∧ ∃ p, e = .finish p false := by
  cases e with
  | observe => exact absurd (circuit_refresh h ▸ h') h
  | call => exact absurd (circuit_refresh h ▸ (acquire_eq_refresh c now b).1 ▸ h') h
  | abandon p => exact absurd (circuit_abandon p b ▸ h') h
  | finish p ok =>
    cases ok with
    | true => exact absurd h' (circuit_succeed_ne_opened h)
    | false =>
      refine ⟨⟨h', ?_⟩, p, rfl⟩
      simp only [step, finish, Bool.false_eq_true, if_false, fail] at h' ⊢
      cases hb : b.circuit with
      | opened => exact absurd hb h
      | halfOpen => rfl
      | closed =>
        simp only [hb] at h' ⊢
        split
        · rfl
        · rename_i hfew
          simp [hfew] at h'

/-! ### Places that are taken -/

/-- The places for probes that are taken; a breaker that is not half open has none. -/
def taken (b : Breaker) : Nat := if b.circuit = .halfOpen then b.admitted else 0

theorem taken_of_halfOpen (h : b.circuit = .halfOpen) : b.taken = b.admitted := if_pos h

theorem admitted_refresh_eq_taken (h : (b.refresh c now).circuit = .halfOpen) :
    (b.refresh c now).admitted = b.taken := by
  by_cases hb : b.circuit = .halfOpen
  · rw [refresh_of_halfOpen hb, taken_of_halfOpen hb]
  · rw [admitted_refresh hb h, taken, if_neg hb]

theorem acquire_of_halfOpen (h : (b.acquire c now).2.circuit = .halfOpen) :
    (b.acquire c now).1 = none ∧ (b.acquire c now).2.admitted = b.taken ∨
      (b.acquire c now).1.isSome ∧ b.taken < c.maxProbes ∧
        (b.acquire c now).2.admitted = b.taken + 1 := by
  have hr : (b.refresh c now).circuit = .halfOpen := (acquire_eq_refresh c now b).1 ▸ h
  simp only [acquire, hr, admitted_refresh_eq_taken hr]
  split
  · exact .inl ⟨rfl, admitted_refresh_eq_taken hr⟩
  · rename_i hfree
    exact .inr ⟨rfl, Nat.lt_of_not_le hfree, rfl⟩

theorem halfOpen_of_step {e : Event} (h : (b.step c now e).circuit = .halfOpen)
    (hobserve : e ≠ .observe) (hcall : e ≠ .call) : b.circuit = .halfOpen := by
  by_contra hb
  exact (refresh_of_begins e hb h).2.elim hobserve hcall

/-! ### Failures that are counted -/

theorem failures_refresh (h : b.circuit = .closed) : (b.refresh c now).failures =
    if c.interval ≤ now - b.windowStart then 0 else b.failures := by
  simp only [refresh, h]
  split <;> rfl

theorem failures_acquire : (b.acquire c now).2.failures = (b.refresh c now).failures := by
  simp only [acquire]
  split
  · rfl
  · rfl
  · split <;> rfl

theorem failures_abandon (p : Permit) : (b.abandon p).failures = b.failures := by
  unfold abandon
  split
  · rfl
  · split <;> rfl

theorem circuit_fail_ne_closed (h : b.circuit ≠ .closed) : (b.fail c now).circuit ≠ .closed := by
  cases hb : b.circuit with
  | closed => exact absurd hb h
  | opened => simp [fail, hb]
  | halfOpen => simp [fail, hb, trip]

theorem failures_of_closes (e : Event) (h : b.circuit ≠ .closed)
    (h' : (b.step c now e).circuit = .closed) : (b.step c now e).failures = 0 := by
  have refreshed : (b.refresh c now).circuit ≠ .closed := by
    cases shift_refresh c now b with
    | stay hc _ => rwa [hc]
    | cool _ hhalf _ => simp [hhalf]
    | close hhalf _ _ => simp [refresh_of_halfOpen hhalf, hhalf]
    | trip _ hopen _ => simp [hopen]
  cases e with
  | observe => exact absurd h' refreshed
  | call => exact absurd ((acquire_eq_refresh c now b).1 ▸ h') refreshed
  | abandon p => exact absurd (circuit_abandon p b ▸ h') h
  | finish p ok =>
    cases ok with
    | false => exact absurd h' (circuit_fail_ne_closed h)
    | true =>
      cases hb : b.circuit with
      | closed => exact absurd hb h
      | opened => simp [step, finish, succeed, hb] at h'
      | halfOpen =>
        simp only [step, finish, succeed, hb, if_true] at h' ⊢
        split
        · rfl
        · rename_i hfew
          simp [hfew] at h'

end Breaker

namespace Traffic

variable {κ : Type} [DecidableEq κ]

/-! ### Moments -/

/-- A move of a run, with the traffic before and after it. -/
structure Moment (κ : Type) where
  before : Traffic κ
  time : Nat
  move : Move κ
  after : Traffic κ

/-- The moment of a move. -/
def moment (c : BreakerConfig) (t : Traffic κ) (m : Nat × Move κ) : Moment κ :=
  ⟨t, m.1, m.2, t.step c m⟩

/-- The moments of a run. -/
def moments (c : BreakerConfig) (t : Traffic κ) : List (Nat × Move κ) → List (Moment κ)
  | [] => []
  | m :: ms => t.moment c m :: (t.step c m).moments c ms

namespace Moment

/-- The breaker opens. -/
def Trips (s : Moment κ) : Prop :=
  s.before.breaker.circuit ≠ .opened ∧ s.after.breaker.circuit = .opened

/-- A call that asks is admitted. -/
def Admits (s : Moment κ) : Prop :=
  ∃ k, s.move = .start k ∧ s.before.calls k = none ∧ s.after.calls k ≠ none

/-- A call is admitted to a half-open period. -/
def admitsTo (period : Nat) (s : Moment κ) : Bool :=
  match s.move with
  | .start k => (s.before.calls k).isNone && (s.after.calls k).bind (·.period) == some period
  | _ => false

/-- A call is dropped in the half-open period that admitted it. -/
def dropsFrom (period : Nat) (s : Moment κ) : Bool :=
  match s.move with
  | .drop k => decide (s.before.IsProbe k ∧ s.before.periods = period)
  | _ => false

/-- A call ends in failure while the breaker is closed. -/
def fails (s : Moment κ) : Bool :=
  match s.move with
  | .finish k false => (s.before.calls k).isSome && decide (s.before.breaker.circuit = .closed)
  | _ => false

/-- A row of failures is broken: by a success, when the breaker closes, or when it looks at its
clock and the interval has passed. -/
inductive Breaks (c : BreakerConfig) (s : Moment κ) : Prop
  | success {k : κ} (move : s.move = .finish k true) (call : (s.before.calls k).isSome)
  | closing (before : s.before.breaker.circuit ≠ .closed)
    (after : s.after.breaker.circuit = .closed)
  | interval (closed : s.before.breaker.circuit = .closed)
    (asked : s.move = .observe ∨ ∃ k, s.move = .start k ∧ s.before.calls k = none)
    (elapsed : c.interval ≤ s.time - s.before.breaker.windowStart)

end Moment

variable {c : BreakerConfig} {t : Traffic κ} {m : Nat × Move κ} {ms ms' : List (Nat × Move κ)}

theorem moments_append :
    t.moments c (ms ++ ms') = t.moments c ms ++ (t.run c ms).moments c ms' := by
  induction ms generalizing t with
  | nil => rfl
  | cons m ms ih => simp [moments, run, ih]

theorem moments_concat : t.moments c (ms ++ [m]) = t.moments c ms ++ [(t.run c ms).moment c m] :=
  moments_append

theorem exists_of_moments {past future : List (Moment κ)} {s : Moment κ}
    (h : t.moments c ms = past ++ s :: future) :
    ∃ before m, past = t.moments c before ∧ s = (t.run c before).moment c m := by
  induction ms generalizing t past with
  | nil => simp [moments] at h
  | cons m ms ih =>
    cases past with
    | nil => exact ⟨[], m, rfl, (List.cons.inj h).1.symm⟩
    | cons first past =>
      obtain ⟨rfl, hrest⟩ := List.cons.inj h
      obtain ⟨before, m', rfl, rfl⟩ := ih hrest
      exact ⟨m :: before, m', rfl, rfl⟩

theorem exists_of_isPrefix {past : List (Moment κ)} (h : past <+: t.moments c ms) :
    ∃ before, past = t.moments c before := by
  obtain ⟨future, h⟩ := h
  cases future with
  | nil => exact ⟨ms, by rw [← h, List.append_nil]⟩
  | cons s future =>
    obtain ⟨before, -, hpast, -⟩ := exists_of_moments h.symm
    exact ⟨before, hpast⟩

theorem exists_of_mem_moments {s : Moment κ} (h : s ∈ t.moments c ms) : ∃ m ∈ ms, s.time = m.1 := by
  induction ms generalizing t with
  | nil => cases h
  | cons m ms ih =>
    obtain rfl | h := List.mem_cons.1 h
    · exact ⟨m, List.mem_cons_self, rfl⟩
    · obtain ⟨m', hm', hs⟩ := ih h
      exact ⟨m', List.mem_cons_of_mem m hm', hs⟩

/-! ### No call before it has cooled down -/

theorem resting_step {opened : Nat} (h : t.breaker.Resting opened) (hpast : opened ≤ m.1)
    (hwarm : m.1 < opened + c.cooldown) :
    ¬ (t.moment c m).Admits ∧ (t.step c m).breaker = t.breaker := by
  cases he : t.event? m.2 with
  | none =>
    rw [moment, step_of_noEvent he]
    refine ⟨?_, rfl⟩
    rintro ⟨k, -, hfree, hcall⟩
    exact hcall hfree
  | some e =>
    have hstep := step_of_event (c := c) he
    rw [h.step_eq hpast hwarm] at hstep
    refine ⟨?_, by rw [hstep]⟩
    rintro ⟨k, hm, -, hcall⟩
    simp only [moment] at hm
    simp [moment, hstep, callsAt, hm, h.acquire_eq hpast hwarm] at hcall

theorem cooled_of_admits {opened : Nat} (h : t.breaker.Resting opened)
    (hpast : ∀ m ∈ ms, opened ≤ m.1) (hclock : ms.Pairwise fun m m' => m.1 ≤ m'.1) :
    ∀ s ∈ t.moments c ms, s.Admits → opened + c.cooldown ≤ s.time := by
  induction ms generalizing t with
  | nil => exact List.forall_mem_nil _
  | cons m ms ih =>
    obtain ⟨hfirst, hclock⟩ := List.pairwise_cons.1 hclock
    obtain ⟨hm, hpast⟩ := List.forall_mem_cons.1 hpast
    by_cases hcooled : opened + c.cooldown ≤ m.1
    -- from here on the clock is past the time of cooling down
    · intro s hs _
      obtain ⟨m', hm', htime⟩ := exists_of_mem_moments hs
      obtain rfl | hm' := List.mem_cons.1 hm'
      · omega
      · have := hfirst m' hm'
        omega
    · obtain ⟨hrefused, hsame⟩ := resting_step h hm (Nat.lt_of_not_le hcooled)
      refine List.forall_mem_cons.2 ⟨fun hadmits => absurd hadmits hrefused, ?_⟩
      exact ih (hsame ▸ h) hpast hclock

/-- **From a trip on no call is admitted** until the breaker has cooled down. -/
theorem pairwise_cooled (hclock : ms.Pairwise fun m m' => m.1 ≤ m'.1) :
    (t.moments c ms).Pairwise fun s s' => s.Trips → s'.Admits → s.time + c.cooldown ≤ s'.time := by
  induction ms generalizing t with
  | nil => exact .nil
  | cons m ms ih =>
    obtain ⟨hfirst, hclock⟩ := List.pairwise_cons.1 hclock
    refine List.pairwise_cons.2 ⟨fun s' hs' ⟨hbefore, hafter⟩ => ?_, ih hclock⟩
    refine cooled_of_admits ?_ hfirst hclock s' hs'
    cases he : t.event? m.2 with
    | none => exact absurd (step_of_noEvent (c := c) he ▸ hafter) hbefore
    | some e =>
      simp only [moment, step_of_event (c := c) he] at hafter hbefore ⊢
      exact (Breaker.resting_of_trip e hbefore hafter).1

/-! ### Places of a half-open period -/

theorem periods_step : (t.step c m).periods =
    if (t.step c m).breaker.circuit = .halfOpen ∧ t.breaker.circuit ≠ .halfOpen then t.periods + 1
    else t.periods := by
  cases he : t.event? m.2 with
  | none => simp [step_of_noEvent he]
  | some e => simp [step_of_event he, periodsAt]

omit [DecidableEq κ] in
theorem Moment.exists_of_admitsTo {s : Moment κ} {n : Nat} (h : s.admitsTo n = true) :
    ∃ k, s.move = .start k := by
  unfold admitsTo at h
  split at h
  · exact ⟨_, by assumption⟩
  · cases h

/-- A call is admitted to the period in which the breaker then is. -/
theorem admitsTo_start_iff {now n : Nat} {k : κ} :
    (t.moment c (now, .start k)).admitsTo n = true ↔ t.calls k = none ∧
      (t.breaker.acquire c now).1.isSome ∧ (t.breaker.acquire c now).2.circuit = .halfOpen ∧
      t.periodsAt (t.breaker.acquire c now).2 = n := by
  simp only [Moment.admitsTo, moment, Bool.and_eq_true, Option.isNone_iff_eq_none, beq_iff_eq]
  refine and_congr_right fun hfree => ?_
  simp only [step_of_event (c := c) (m := (now, .start k)) (event?_start hfree), callsAt, Breaker.step,
    Function.update_self]
  cases (t.breaker.acquire c now).1 <;> simp [letIn]

theorem admitted_of_admitsTo {n : Nat} (h : (t.moment c m).admitsTo n = true) :
    (t.step c m).breaker.circuit = .halfOpen ∧ (t.step c m).periods = n ∧
      t.breaker.taken < c.maxProbes ∧ (t.step c m).breaker.admitted = t.breaker.taken + 1 := by
  obtain ⟨k, hmove⟩ := Moment.exists_of_admitsTo h
  obtain ⟨now, m⟩ := m
  obtain rfl : m = .start k := hmove
  obtain ⟨hfree, hin, hhalf, hperiod⟩ := admitsTo_start_iff.1 h
  rw [step_of_event (event?_start hfree)]
  refine ⟨hhalf, hperiod, ?_⟩
  obtain ⟨hout, -⟩ | ⟨-, hplace⟩ := Breaker.acquire_of_halfOpen hhalf
  · simp [hout] at hin
  · exact hplace

theorem admitted_observe {now : Nat}
    (hhalf : (t.step c (now, .observe)).breaker.circuit = .halfOpen) :
    (t.step c (now, .observe)).breaker.admitted = t.breaker.taken := by
  rw [step_of_event (e := .observe) rfl] at hhalf ⊢
  exact Breaker.admitted_refresh_eq_taken hhalf

theorem admitted_start {now : Nat} {k : κ} (hk : t.calls k = none)
    (hhalf : (t.step c (now, .start k)).breaker.circuit = .halfOpen)
    (hno : (t.moment c (now, .start k)).admitsTo (t.step c (now, .start k)).periods = false) :
    (t.step c (now, .start k)).breaker.admitted = t.breaker.taken := by
  rw [step_of_event (event?_start hk)] at hhalf hno ⊢
  obtain ⟨-, hsame⟩ | ⟨hin, -⟩ := Breaker.acquire_of_halfOpen hhalf
  · exact hsame
  · have hyes := admitsTo_start_iff.2 ⟨hk, hin, hhalf, rfl⟩
    exact absurd (hno.symm.trans hyes) Bool.false_ne_true

/-- A call that ends keeps its place: it is made up for by a success. -/
theorem admitted_finish {now : Nat} {k : κ} {call : Call} (hk : t.calls k = some call) {ok : Bool}
    (hhalf : (t.step c (now, .finish k ok)).breaker.circuit = .halfOpen) :
    (t.step c (now, .finish k ok)).breaker.admitted = t.breaker.taken := by
  rw [step_of_event (event?_finish hk ok)] at hhalf ⊢
  have hb := Breaker.halfOpen_of_step hhalf (by simp) (by simp)
  obtain ⟨-, -, hbreaker⟩ := Breaker.step_finish_of_halfOpen now call.permit hb hhalf
  rw [Breaker.taken_of_halfOpen hb]
  dsimp only
  rw [hbreaker]

theorem admitted_drop (hkept : t.Kept) {now : Nat} {k : κ} {call : Call}
    (hk : t.calls k = some call) (hhalf : (t.step c (now, .drop k)).breaker.circuit = .halfOpen) :
    (t.step c (now, .drop k)).breaker.admitted = t.breaker.taken -
      if (t.moment c (now, .drop k)).dropsFrom (t.step c (now, .drop k)).periods then 1 else 0 := by
  have hb : t.breaker.circuit = .halfOpen := by
    rw [step_of_event (event?_drop hk)] at hhalf
    exact Breaker.halfOpen_of_step hhalf (by simp) (by simp)
  rw [Breaker.taken_of_halfOpen hb]
  by_cases hprobe : t.IsProbe k
  · rw [breaker_drop_of_isProbe hkept hk hprobe, if_pos]
    simp [Moment.dropsFrom, moment, hprobe, periods_step, hb]
  · rw [breaker_drop hkept rfl hk hprobe, if_neg, Nat.sub_zero]
    simp [Moment.dropsFrom, moment, hprobe]

/-- Moves that admit no call to the period take no place, and give one back only if a probe of the
period is dropped. -/
theorem admitted_of_not_admitsTo (hkept : t.Kept)
    (hhalf : (t.step c m).breaker.circuit = .halfOpen)
    (hno : (t.moment c m).admitsTo (t.step c m).periods = false) :
    (t.step c m).breaker.admitted ≤ t.breaker.taken ∧ t.breaker.taken ≤
      (t.step c m).breaker.admitted +
        if (t.moment c m).dropsFrom (t.step c m).periods then 1 else 0 := by
  induction m using t.move_cases c with
  | idle m hsame =>
    rw [hsame] at hhalf ⊢
    rw [Breaker.taken_of_halfOpen hhalf]
    exact ⟨Nat.le_refl _, Nat.le_add_right _ _⟩
  | observe now => exact admitted_observe hhalf ▸ ⟨Nat.le_refl _, Nat.le_add_right _ _⟩
  | start now k hk => exact admitted_start hk hhalf hno ▸ ⟨Nat.le_refl _, Nat.le_add_right _ _⟩
  | finish now k ok call hk =>
    exact admitted_finish hk hhalf ▸ ⟨Nat.le_refl _, Nat.le_add_right _ _⟩
  | drop now k call hk =>
    have := admitted_drop hkept hk hhalf
    omega

/-- The calls that were admitted to each half-open period, those apart that were dropped in it, have
had places for probes; those of the present period have them still. -/
structure Seated (c : BreakerConfig) (x : Traffic κ) (past : List (Moment κ)) : Prop where
  /-- No call was admitted to a period to come. -/
  later : ∀ n, x.periods < n → past.countP (Moment.admitsTo n) = 0
  ever : ∀ n, past.countP (Moment.admitsTo n) ≤ past.countP (Moment.dropsFrom n) + c.maxProbes
  present : x.breaker.circuit = .halfOpen → x.breaker.admitted ≤ c.maxProbes ∧
    past.countP (Moment.admitsTo x.periods) ≤
      past.countP (Moment.dropsFrom x.periods) + x.breaker.admitted

omit [DecidableEq κ] in
theorem seated_start (now : Nat) : Seated c (start now : Traffic κ) [] where
  later _ _ := rfl
  ever _ := Nat.zero_le _
  present h := by cases h

/-- Before a move the calls of the period in which the breaker is after it have the places that are
taken. -/
theorem Seated.before {past : List (Moment κ)} (h : Seated c t past)
    (hhalf : (t.step c m).breaker.circuit = .halfOpen) : t.breaker.taken ≤ c.maxProbes ∧
      past.countP (Moment.admitsTo (t.step c m).periods) ≤
        past.countP (Moment.dropsFrom (t.step c m).periods) + t.breaker.taken := by
  rw [periods_step]
  by_cases hb : t.breaker.circuit = .halfOpen
  · rw [if_neg (by simp [hb]), Breaker.taken_of_halfOpen hb]
    exact h.present hb
  -- a new period: nobody was admitted to it
  · rw [if_pos ⟨hhalf, hb⟩, h.later _ (Nat.lt_succ_self _), Breaker.taken, if_neg hb]
    exact ⟨Nat.zero_le _, Nat.zero_le _⟩

theorem Seated.step {past : List (Moment κ)} (hkept : t.Kept) (h : Seated c t past) :
    Seated c (t.step c m) (past ++ [t.moment c m]) := by
  have hperiods : t.periods ≤ (t.step c m).periods := by
    rw [periods_step]
    split <;> omega
  have present (hhalf : (t.step c m).breaker.circuit = .halfOpen) :
      (t.step c m).breaker.admitted ≤ c.maxProbes ∧
        (past ++ [t.moment c m]).countP (Moment.admitsTo (t.step c m).periods) ≤
          (past ++ [t.moment c m]).countP (Moment.dropsFrom (t.step c m).periods) +
            (t.step c m).breaker.admitted := by
    obtain ⟨hmax, hcount⟩ := h.before hhalf
    simp only [List.countP_append, List.countP_singleton]
    cases hadmits : (t.moment c m).admitsTo (t.step c m).periods with
    | true =>
      obtain ⟨-, -, hfree, htaken⟩ := admitted_of_admitsTo hadmits
      rw [if_pos rfl]
      omega
    | false =>
      obtain ⟨hle, hback⟩ := admitted_of_not_admitsTo hkept hhalf hadmits
      rw [if_neg Bool.false_ne_true]
      omega
  refine ⟨fun n hn => ?_, fun n => ?_, present⟩
  · have hnot : ¬ (t.moment c m).admitsTo n = true := fun hadmits => by
      have := (admitted_of_admitsTo hadmits).2.1
      omega
    rw [List.countP_append, h.later n (by omega), List.countP_singleton, if_neg hnot]
  · by_cases hadmits : (t.moment c m).admitsTo n = true
    · obtain ⟨hhalf, rfl, -, -⟩ := admitted_of_admitsTo hadmits
      obtain ⟨hmax, hcount⟩ := present hhalf
      omega
    · have := h.ever n
      simp only [List.countP_append, List.countP_singleton, if_neg hadmits]
      omega

/-- **Places are never given away twice**, in any run. -/
theorem seated_run (c : BreakerConfig) (now : Nat) (ms : List (Nat × Move κ)) :
    Seated c ((start now).run c ms) ((start now).moments c ms) := by
  induction ms using List.reverseRecOn with
  | nil => exact seated_start now
  | append_singleton ms m ih =>
    rw [moments_concat, run, List.foldl_append]
    exact ih.step (kept_run c now ms)

/-! ### Rows of failures -/

/-- While the breaker is closed it counts the failures since the row was broken last. -/
def Streak (c : BreakerConfig) (x : Traffic κ) (past : List (Moment κ)) : Prop :=
  x.breaker.circuit = .closed → ∃ earlier recent, past = earlier ++ recent ∧
    (∀ s ∈ recent, ¬ s.Breaks c) ∧ x.breaker.failures = recent.countP Moment.fails

omit [DecidableEq κ] in
theorem event?_eq_observe_iff {m : Move κ} : t.event? m = some .observe ↔ m = .observe := by
  cases m <;> simp [event?]

omit [DecidableEq κ] in
theorem event?_eq_call_iff {m : Move κ} :
    t.event? m = some .call ↔ ∃ k, m = .start k ∧ t.calls k = none := by
  cases m <;> simp [event?]

omit [DecidableEq κ] in
theorem exists_event?_eq_finish_iff {m : Move κ} {ok : Bool} :
    (∃ p, t.event? m = some (.finish p ok)) ↔ ∃ k, m = .finish k ok ∧ (t.calls k).isSome := by
  constructor
  · rintro ⟨p, h⟩
    cases m with
    | finish k ok' =>
      obtain ⟨call, hk, hfinish⟩ := Option.map_eq_some_iff.1 h
      cases hfinish
      exact ⟨k, rfl, by simp [hk]⟩
    | _ => simp [event?] at h
  · rintro ⟨k, rfl, hk⟩
    obtain ⟨call, hk⟩ := Option.isSome_iff_exists.1 hk
    exact ⟨call.permit, by simp [event?, hk]⟩

theorem fails_iff : (t.moment c m).fails = true ↔
    t.breaker.circuit = .closed ∧ ∃ p, t.event? m.2 = some (.finish p false) := by
  rw [exists_event?_eq_finish_iff, and_comm]
  obtain ⟨now, m⟩ := m
  cases m with
  | finish k ok =>
    cases ok with
    | true => simp [Moment.fails, moment]
    | false =>
      simp only [Moment.fails, moment, Bool.and_eq_true, Move.finish.injEq, and_true,
        exists_eq_left']
      exact and_congr_right fun _ => decide_eq_true_iff
  | _ => simp [Moment.fails, moment]

theorem breaks_iff (h : t.breaker.circuit = .closed) : (t.moment c m).Breaks c ↔
    (∃ p, t.event? m.2 = some (.finish p true)) ∨
      (t.event? m.2 = some .observe ∨ t.event? m.2 = some .call) ∧
        c.interval ≤ m.1 - t.breaker.windowStart := by
  rw [exists_event?_eq_finish_iff, event?_eq_observe_iff, event?_eq_call_iff]
  constructor
  · rintro (⟨hmove, hcall⟩ | ⟨hopen, -⟩ | ⟨-, hasked, hover⟩)
    · exact .inl ⟨_, hmove, hcall⟩
    · exact absurd h hopen
    · exact .inr ⟨hasked, hover⟩
  · rintro (⟨k, hmove, hcall⟩ | ⟨hasked, hover⟩)
    · exact .success hmove hcall
    · exact .interval h hasked hover

/-- A move that leaves the breaker closed starts a new row, or adds a failure to it, or does
neither. -/
theorem failures_step (h : (t.step c m).breaker.circuit = .closed) :
    (t.step c m).breaker.failures = 0 ∨ ¬ (t.moment c m).Breaks c ∧ t.breaker.circuit = .closed ∧
      (t.step c m).breaker.failures =
        t.breaker.failures + if (t.moment c m).fails then 1 else 0 := by
  by_cases hb : t.breaker.circuit = .closed
  swap
  · cases he : t.event? m.2 with
    | none => exact absurd (step_of_noEvent (c := c) he ▸ h) hb
    | some e =>
      rw [step_of_event he] at h ⊢
      exact .inl (Breaker.failures_of_closes e hb h)
  -- a move that is not the end of a call is no failure
  have quiet (hno : ∀ p, t.event? m.2 ≠ some (.finish p false)) :
      (t.moment c m).fails = false := by
    rw [← Bool.not_eq_true, fails_iff]
    exact fun ⟨_, p, hfinish⟩ => hno p hfinish
  rw [breaks_iff hb]
  cases he : t.event? m.2 with
  | none => simp [quiet (by simp [he]), step_of_noEvent he, hb]
  | some e =>
    rw [step_of_event he] at h ⊢
    cases e with
    | observe =>
      simp only [Breaker.step, Breaker.failures_refresh hb, quiet (by simp [he])]
      split <;> simp [*]
    | call =>
      simp only [Breaker.step, Breaker.failures_acquire, Breaker.failures_refresh hb,
        quiet (by simp [he])]
      split <;> simp [*]
    | abandon p => simp [Breaker.step, Breaker.failures_abandon, quiet (by simp [he]), hb]
    | finish p ok =>
      cases ok with
      | true => simp [Breaker.step, Breaker.finish, Breaker.succeed, hb]
      | false =>
        have hfails : (t.moment c m).fails = true := fails_iff.2 ⟨hb, p, he⟩
        by_cases hlast : c.failureThreshold ≤ t.breaker.failures + 1
        · simp [Breaker.step, Breaker.finish, Breaker.fail, Breaker.trip, hb, hlast] at h
        · simp [Breaker.step, Breaker.finish, Breaker.fail, hb, hlast, hfails]

theorem Streak.step {past : List (Moment κ)} (h : Streak c t past) :
    Streak c (t.step c m) (past ++ [t.moment c m]) := by
  intro hclosed
  obtain hnone | ⟨hrow, hbefore, hcount⟩ := failures_step hclosed
  · exact ⟨_, [], (List.append_nil _).symm, List.forall_mem_nil _, hnone⟩
  · obtain ⟨earlier, recent, rfl, hrecent, hfailures⟩ := h hbefore
    refine ⟨earlier, recent ++ [t.moment c m], List.append_assoc _ _ _, ?_, ?_⟩
    · exact List.forall_mem_append.2 ⟨hrecent, List.forall_mem_singleton.2 hrow⟩
    · rw [hcount, hfailures, List.countP_append, List.countP_singleton]

theorem streak_run (c : BreakerConfig) (now : Nat) (ms : List (Nat × Move κ)) :
    Streak c ((start now).run c ms) ((start now).moments c ms) := by
  induction ms using List.reverseRecOn with
  | nil => exact fun _ => ⟨[], [], rfl, List.forall_mem_nil _, rfl⟩
  | append_singleton ms m ih =>
    rw [moments_concat, run, List.foldl_append]
    exact ih.step

theorem threshold_of_opens (hbefore : t.breaker.circuit = .closed)
    (hafter : (t.step c m).breaker.circuit = .opened) :
    (t.moment c m).fails = true ∧ c.failureThreshold ≤ t.breaker.failures + 1 := by
  cases he : t.event? m.2 with
  | none => simp [step_of_noEvent he, hbefore] at hafter
  | some e =>
    rw [step_of_event he] at hafter
    obtain ⟨-, p, rfl⟩ := Breaker.resting_of_trip e (by simp [hbefore]) hafter
    refine ⟨fails_iff.2 ⟨hbefore, p, he⟩, ?_⟩
    by_contra hfew
    simp [Breaker.step, Breaker.finish, Breaker.fail, hbefore, hfew] at hafter

/-! ### The limits -/

/-- The limits of a breaker in a run. -/
structure Limits (c : BreakerConfig) (run : List (Moment κ)) : Prop where
  /-- From a trip on no call is admitted before the breaker has cooled down. -/
  cooled : run.Pairwise fun s s' => s.Trips → s'.Admits → s.time + c.cooldown ≤ s'.time
  /-- The calls admitted to a half-open period, those apart that were dropped in it, are at any time
  no more than there are places for probes. -/
  places : ∀ past future, run = past ++ future → ∀ n,
    past.countP (Moment.admitsTo n) ≤ past.countP (Moment.dropsFrom n) + c.maxProbes
  /-- A closed breaker opens only by a failure that is the last of as many as it takes, the row not
  being broken between them. -/
  threshold : ∀ past s future, run = past ++ s :: future → s.before.breaker.circuit = .closed →
    s.after.breaker.circuit = .opened → s.fails = true ∧ ∃ earlier recent,
      past = earlier ++ recent ∧ (∀ r ∈ recent, ¬ r.Breaks c) ∧
        c.failureThreshold ≤ recent.countP Moment.fails + 1

/-- **A breaker keeps its limits**, in whatever order calls start, end and are dropped, as long as
its clock does not run backwards. -/
theorem limits (c : BreakerConfig) (now : Nat) (ms : List (Nat × Move κ))
    (hclock : ms.Pairwise fun m m' => m.1 ≤ m'.1) :
    Limits c ((start now : Traffic κ).moments c ms) where
  cooled := pairwise_cooled hclock
  places past future h n := by
    obtain ⟨ms', rfl⟩ := exists_of_isPrefix ⟨future, h.symm⟩
    exact (seated_run c now ms').ever n
  threshold past s future h hbefore hafter := by
    obtain ⟨before, m, rfl, rfl⟩ := exists_of_moments h
    obtain ⟨hfails, hthreshold⟩ := threshold_of_opens hbefore hafter
    obtain ⟨earlier, recent, hpast, hrow, hcount⟩ := streak_run c now before hbefore
    exact ⟨hfails, earlier, recent, hpast, hrow, hcount ▸ hthreshold⟩

/-- A breaker that opens at the second failure in a row and closes with one probe. -/
def twoFailures : BreakerConfig := { failureThreshold := 2, cooldown := 10, maxProbes := 1 }

/-- A success stands between the first two failures; the third one opens the breaker.  It refuses a
call, and once it has cooled down it admits a probe, another one when that is dropped, and no third
one. -/
def brokenRow : List (Nat × Move Nat) :=
  [(0, .start 0), (0, .start 1), (0, .start 2), (1, .finish 0 false), (2, .finish 1 true),
    (2, .start 0), (3, .finish 0 false), (3, .finish 2 false), (12, .start 0), (13, .start 0),
    (14, .drop 0), (14, .start 1), (15, .start 2)]

theorem limits_brokenRow :
    Limits twoFailures ((start 0).moments twoFailures brokenRow) ∧
      ((start 0).run twoFailures (brokenRow.take 7)).breaker.circuit = .closed ∧
      ((start 0).run twoFailures (brokenRow.take 8)).breaker.circuit = .opened ∧
      ((start 0).run twoFailures (brokenRow.take 9)).calls 0 = none ∧
      (((start 0).run twoFailures (brokenRow.take 10)).calls 0).isSome ∧
      ((start 0).moments twoFailures brokenRow).countP (Moment.admitsTo 1) = 2 ∧
      ((start 0).moments twoFailures brokenRow).countP (Moment.dropsFrom 1) = 1 :=
  ⟨limits twoFailures 0 brokenRow (by decide), by decide, by decide, by decide, by decide,
    by decide, by decide⟩

end Traffic

end DoubleEntry
