import DoubleEntry.Proofs.Probes
import Mathlib.Data.Finset.Card
import Mathlib.Data.Fintype.Defs

/-!
# Recovery of a breaker

A half-open breaker has only so many places for probes, and a probe gives its place back only when
it is given up.  A place that leaked would be lost for good: with all of them lost the breaker
refuses every call, and without a call it never leaves the half-open period.

No place leaks (`Traffic.accounted_run`): each place that a half-open breaker has given away is held
by a probe in progress, or is made up for by a success.  The successes may be those of calls that
were admitted in another time, so the places that are taken for good are at most as many.  Hence a
half-open breaker whose probes are over has a place for another one (`Traffic.Accounted.places`), and
a breaker without calls closes, once it has cooled down, after as many calls as it admits probes, if
they succeed (`Traffic.recovers`).

## Main definitions

* `Traffic.Accounted`: no place of a half-open breaker has leaked.
* `Breaker.Ready`: a breaker that is closed or can close.
* `Breaker.missing`: the successes that it takes to close.
* `Traffic.succeeding`: calls one after the other, all of which succeed.
-/

namespace DoubleEntry

namespace Breaker

variable {c : BreakerConfig} {now : Nat} {b : Breaker}

theorem admitted_refresh (h : b.circuit ≠ .halfOpen)
    (h' : (b.refresh c now).circuit = .halfOpen) : (b.refresh c now).admitted = 0 := by
  unfold refresh at h' ⊢
  split
  · split
    · rfl
    · simp_all
  · split <;> simp_all
  · contradiction

/-- A half-open period begins with no place given away, or with the place of the call that began
it. -/
theorem admitted_step (e : Event) (h : b.circuit ≠ .halfOpen)
    (h' : (b.step c now e).circuit = .halfOpen) :
    (b.step c now e).admitted = 0 ∨
      e = .call ∧ (b.acquire c now).1.isSome ∧ (b.step c now e).admitted = 1 := by
  obtain ⟨hr, rfl | rfl⟩ := refresh_of_begins e h h'
  · exact .inl (admitted_refresh h hr)
  · simp only [step, acquire, hr]
    split
    · exact .inl (admitted_refresh h hr)
    · simp [admitted_refresh h hr]

@[simp]
theorem openedAt_refresh : (b.refresh c now).openedAt = b.openedAt := by
  unfold refresh
  split
  · split <;> rfl
  · split <;> rfl
  · rfl

theorem openedAt_step (e : Event) {at' : Nat} (h : (b.step c now e).openedAt = some at') :
    at' = now ∨ b.openedAt = some at' := by
  cases e with
  | observe => exact .inr (openedAt_refresh ▸ h)
  | call =>
    simp only [step, acquire] at h
    split at h
    · exact .inr (openedAt_refresh ▸ h)
    · exact .inr (openedAt_refresh ▸ h)
    · split at h <;> exact .inr (openedAt_refresh ▸ h)
  | finish p ok =>
    cases ok with
    | true =>
      simp only [step, finish, succeed, if_true] at h
      split at h
      · exact .inr h
      · split at h
        · cases h
        · exact .inr h
      · exact .inr h
    | false =>
      simp only [step, finish, fail, Bool.false_eq_true, if_false] at h
      split at h
      · split at h
        · exact .inl (Option.some.inj h).symm
        · exact .inr h
      · exact .inl (Option.some.inj h).symm
      · exact .inr h
  | abandon p =>
    simp only [step, abandon] at h
    split at h
    · exact .inr h
    · split at h <;> exact .inr h

/-! ### A breaker that can close -/

/-- The breaker is closed or can close: it opened no later than a time, and half open it has a place
for a probe for each success that it lacks. -/
structure Ready (c : BreakerConfig) (present : Nat) (b : Breaker) : Prop where
  opened : ∀ at', b.openedAt = some at' → at' ≤ present
  halfOpen : b.circuit = .halfOpen → b.admitted ≤ b.successes ∧ b.successes < c.maxProbes

/-- The successes that it takes to close. -/
def missing (c : BreakerConfig) (b : Breaker) : Nat :=
  match b.circuit with
  | .closed => 0
  | .opened => c.maxProbes
  | .halfOpen => c.maxProbes - b.successes

theorem missing_le (c : BreakerConfig) (b : Breaker) : b.missing c ≤ c.maxProbes := by
  unfold missing
  split <;> omega

/-- It lacks no success only if it is closed. -/
theorem Ready.closed_of_missing {present : Nat} (h : b.Ready c present) (hmax : 1 ≤ c.maxProbes)
    (hmissing : b.missing c = 0) : b.circuit = .closed := by
  cases hb : b.circuit with
  | closed => rfl
  | opened =>
    simp only [missing, hb] at hmissing
    omega
  | halfOpen =>
    have := (h.halfOpen hb).2
    simp only [missing, hb] at hmissing
    omega

theorem Ready.refresh {present : Nat} (h : b.Ready c present) (hmax : 1 ≤ c.maxProbes)
    (hcool : present + c.cooldown ≤ now) :
    (b.refresh c now).Ready c present ∧ (b.refresh c now).circuit ≠ .opened ∧
      (b.refresh c now).missing c = b.missing c := by
  cases hb : b.circuit with
  | closed =>
    simp only [Breaker.refresh, hb]
    split
    · exact ⟨⟨h.opened, by simp⟩, by simp, by simp [missing, hb]⟩
    · exact ⟨h, by simp [hb], rfl⟩
  | halfOpen =>
    rw [refresh_of_halfOpen hb]
    exact ⟨h, by simp [hb], rfl⟩
  | opened =>
    have hcooled : b.openedAt.all fun at' => c.cooldown ≤ now - at' := by
      cases hat : b.openedAt with
      | none => rfl
      | some at' =>
        have := h.opened at' hat
        simp only [Option.all_some, decide_eq_true_eq]
        omega
    simp only [Breaker.refresh, hb, hcooled, if_true]
    exact ⟨⟨h.opened, fun _ => ⟨Nat.le_refl _, hmax⟩⟩, by simp, by simp [missing, hb]⟩

theorem Ready.call {present started : Nat} (h : b.Ready c present) (hmax : 1 ≤ c.maxProbes)
    (hcool : present + c.cooldown ≤ started) (ended : Nat) :
    ((b.acquire c started).1).isSome ∧
      ((b.acquire c started).2.succeed c ended).Ready c present ∧
      ((b.acquire c started).2.succeed c ended).missing c ≤ b.missing c - 1 := by
  obtain ⟨hready, hrunning, hmissing⟩ := h.refresh hmax hcool
  simp only [acquire, ← hmissing]
  generalize b.refresh c started = b' at hready hrunning
  cases hb : b'.circuit with
  | opened => exact absurd hb hrunning
  | closed =>
    simp only [succeed, hb]
    exact ⟨rfl, ⟨hready.opened, by simp⟩, by simp [missing]⟩
  | halfOpen =>
    obtain ⟨hle, hlt⟩ := hready.halfOpen hb
    simp only [Nat.not_le.2 (Nat.lt_of_le_of_lt hle hlt), if_false, succeed]
    split
    · exact ⟨rfl, ⟨by simp, by simp⟩, by simp [missing]⟩
    · rename_i hfew
      refine ⟨rfl, ⟨hready.opened, fun _ => ⟨by simpa using hle, Nat.lt_of_not_le hfew⟩⟩, ?_⟩
      simp only [missing, hb]
      omega

end Breaker

namespace Traffic

variable {κ : Type} {c : BreakerConfig} {t : Traffic κ}

/-! ### Places -/

/-- Every place that a half-open breaker has given away is held by a probe in progress or made up
for by a success, and it takes more successes to close. -/
def Accounted (c : BreakerConfig) (t : Traffic κ) : Prop :=
  t.breaker.circuit = .halfOpen → t.breaker.successes < c.maxProbes ∧
    ∃ probes : Finset κ, (∀ k ∈ probes, t.IsProbe k) ∧
      t.breaker.admitted ≤ t.breaker.successes + probes.card

theorem Accounted.places (h : t.Accounted c) (hb : t.breaker.circuit = .halfOpen)
    (hnone : ∀ k, ¬ t.IsProbe k) :
    t.breaker.admitted ≤ t.breaker.successes ∧ t.breaker.successes < c.maxProbes := by
  obtain ⟨hlt, probes, hprobes, hle⟩ := h hb
  have hempty : probes = ∅ := Finset.eq_empty_of_forall_notMem fun k hk => hnone k (hprobes k hk)
  simp only [hempty, Finset.card_empty, Nat.add_zero] at hle
  exact ⟨hle, hlt⟩

theorem Accounted.of_breaker_eq {t' : Traffic κ} (h : t.Accounted c) (hb : t'.breaker = t.breaker)
    (hprobes : ∀ k, t.IsProbe k → t'.IsProbe k) : t'.Accounted c := by
  rw [Accounted, hb]
  intro hhalf
  obtain ⟨hlt, probes, hold, hle⟩ := h hhalf
  exact ⟨hlt, probes, fun k hk => hprobes k (hold k hk), hle⟩

variable [DecidableEq κ] {m : Nat × Move κ} {ms : List (Nat × Move κ)}

/-- One call apart, the probes in progress and the successes account for all places but one. -/
theorem Accounted.others (h : t.Accounted c) (hb : t.breaker.circuit = .halfOpen) (k : κ) :
    ∃ probes : Finset κ, (∀ k' ∈ probes, t.IsProbe k' ∧ k' ≠ k) ∧
      t.breaker.admitted ≤ t.breaker.successes + probes.card + 1 := by
  obtain ⟨-, probes, hprobes, hle⟩ := h hb
  refine ⟨probes.erase k, fun k' hk' => ?_, ?_⟩
  · exact ⟨hprobes k' (Finset.mem_of_mem_erase hk'), Finset.ne_of_mem_erase hk'⟩
  · have : probes.card - 1 ≤ (probes.erase k).card := Finset.pred_card_le_card_erase
    omega

theorem IsProbe.step {k : κ} (h : t.IsProbe k)
    (hhalf : (t.step c m).breaker.circuit = .halfOpen)
    (hends : ∀ ok, m.2 ≠ .finish k ok) (hdropped : m.2 ≠ .drop k) : (t.step c m).IsProbe k := by
  obtain ⟨hb, hperiod⟩ := h
  refine ⟨hhalf, ?_⟩
  cases he : t.event? m.2 with
  | none => rwa [step_of_noEvent he]
  | some e =>
    rw [step_of_event he] at hhalf ⊢
    have hperiods : t.periodsAt (t.breaker.step c m.1 e) = t.periods := by simp [periodsAt, hb]
    obtain ⟨now, m⟩ := m
    rw [hperiods]
    cases m with
    | observe => exact hperiod
    | start k' =>
      -- the name of a call in progress is not given to another one
      have hne : k ≠ k' := by
        rintro rfl
        cases hk : t.calls k with
        | none => simp [hk] at hperiod
        | some call => simp [event?, hk] at he
      simpa [callsAt, Function.update_of_ne hne] using hperiod
    | finish k' ok =>
      have hne : k ≠ k' := fun hk => hends ok (hk ▸ rfl)
      simpa [callsAt, Function.update_of_ne hne] using hperiod
    | drop k' =>
      have hne : k ≠ k' := fun hk => hdropped (hk ▸ rfl)
      simpa [callsAt, Function.update_of_ne hne] using hperiod

theorem breaker_drop_of_isProbe (hkept : t.Kept) {now : Nat} {k : κ} {call : Call}
    (hk : t.calls k = some call) (hprobe : t.IsProbe k) : (t.step c (now, .drop k)).breaker =
      { t.breaker with admitted := t.breaker.admitted - 1 } := by
  obtain ⟨hb, hperiod⟩ := hprobe
  simp only [hk, Option.bind_some] at hperiod
  have hpermit : call.permit = some t.breaker.generation := by
    cases hkept k call hk with
    | through => cases hperiod
    | probe _ _ _ hh => exact congrArg some ((hh hb).2 (Option.some.inj hperiod))
  rw [step_of_event (event?_drop hk)]
  simp [Breaker.step, Breaker.abandon, hpermit, hb]

theorem accounted_of_begins (hmax : 1 ≤ c.maxProbes) (hb : t.breaker.circuit ≠ .halfOpen) :
    (t.step c m).Accounted c := by
  intro hhalf
  cases he : t.event? m.2 with
  | none => exact absurd (step_of_noEvent (c := c) he ▸ hhalf) hb
  | some e =>
    have hstep := step_of_event (c := c) he
    rw [hstep] at hhalf
    have hsucc : (t.step c m).breaker.successes = 0 := by
      rw [hstep]
      exact Breaker.successes_step e hb hhalf
    refine ⟨by omega, ?_⟩
    obtain hnone | ⟨rfl, hadmitted, hone⟩ := Breaker.admitted_step e hb hhalf
    · refine ⟨∅, by simp, ?_⟩
      rw [hstep]
      exact hnone ▸ Nat.zero_le _
    · obtain ⟨now, m⟩ := m
      obtain ⟨k, rfl⟩ : ∃ k, m = .start k := by cases m <;> simp_all [event?]
      obtain ⟨p, hp⟩ := Option.isSome_iff_exists.1 hadmitted
      refine ⟨{k}, fun k' hk' => ?_, ?_⟩
      · obtain rfl := Finset.mem_singleton.1 hk'
        rw [hstep]
        exact ⟨hhalf, by simp_all [callsAt, letIn]⟩
      · rw [hstep, Finset.card_singleton]
        exact hone.trans_le (Nat.le_add_left 1 _)

theorem Accounted.step_observe (h : t.Accounted c) (hb : t.breaker.circuit = .halfOpen)
    (now : Nat) : (t.step c (now, .observe)).Accounted c := by
  have hsame : (t.step c (now, .observe)).breaker = t.breaker := by
    rw [step_of_event (e := .observe) rfl]
    exact Breaker.refresh_of_halfOpen hb
  exact h.of_breaker_eq hsame fun k hk => hk.step (hsame ▸ hb) (by simp) (by simp)

theorem Accounted.step_start (h : t.Accounted c) (hb : t.breaker.circuit = .halfOpen) {k : κ}
    (hk : t.calls k = none) (now : Nat) : (t.step c (now, .start k)).Accounted c := by
  intro hhalf
  obtain ⟨hlt, probes, hprobes, hle⟩ := h hb
  have hold (k' : κ) (hk' : k' ∈ probes) : (t.step c (now, .start k)).IsProbe k' :=
    (hprobes k' hk').step hhalf (by simp) (by simp)
  have hcase : t.ProbeStep c (now, .start k) (t.step c (now, .start k)).breaker :=
    probeStep_start hb now hk
  generalize (t.step c (now, .start k)).breaker = b at hcase
  cases hcase with
  | idle => exact ⟨hlt, probes, hold, hle⟩
  | admitted _ hnew =>
    have hfresh : k ∉ probes := fun hmem => by simpa [IsProbe, hk] using hprobes k hmem
    refine ⟨hlt, insert k probes, fun k' hk' => ?_, ?_⟩
    · obtain rfl | hk' := Finset.mem_insert.1 hk'
      · exact hnew
      · exact hold k' hk'
    · rw [Finset.card_insert_of_notMem hfresh]
      dsimp only
      omega

/-- A call that ends leaves a success for the place that it may have held, or the half-open period
ends with it. -/
theorem Accounted.step_finish (h : t.Accounted c) (hb : t.breaker.circuit = .halfOpen) {k : κ}
    {call : Call} (hk : t.calls k = some call) (now : Nat) (ok : Bool) :
    (t.step c (now, .finish k ok)).Accounted c := by
  intro hhalf
  obtain ⟨probes, hprobes, hle⟩ := h.others hb k
  have hold (k' : κ) (hk' : k' ∈ probes) : (t.step c (now, .finish k ok)).IsProbe k' :=
    (hprobes k' hk').1.step hhalf (fun _ he => (hprobes k' hk').2 (by cases he; rfl)) (by simp)
  have hstep : (t.step c (now, .finish k ok)).breaker =
      t.breaker.step c now (.finish call.permit ok) := by
    rw [step_of_event (event?_finish hk ok)]
  rw [hstep] at hhalf ⊢
  obtain ⟨-, hfew, hbreaker⟩ := Breaker.step_finish_of_halfOpen now call.permit hb hhalf
  rw [hbreaker]
  refine ⟨hfew, probes, hold, ?_⟩
  dsimp only
  omega

/-- A probe that is dropped gives its place back, and no other call gives one back. -/
theorem Accounted.step_drop (h : t.Accounted c) (hkept : t.Kept)
    (hb : t.breaker.circuit = .halfOpen) {k : κ} {call : Call} (hk : t.calls k = some call)
    (now : Nat) : (t.step c (now, .drop k)).Accounted c := by
  by_cases hprobe : t.IsProbe k
  · intro hhalf
    obtain ⟨hlt, -⟩ := h hb
    obtain ⟨probes, hprobes, hle⟩ := h.others hb k
    have hold (k' : κ) (hk' : k' ∈ probes) : (t.step c (now, .drop k)).IsProbe k' :=
      (hprobes k' hk').1.step hhalf (by simp) (fun he => (hprobes k' hk').2 (by cases he; rfl))
    rw [breaker_drop_of_isProbe hkept hk hprobe]
    refine ⟨hlt, probes, hold, ?_⟩
    dsimp only
    omega
  · have hsame : (t.step c (now, .drop k)).breaker = t.breaker := breaker_drop hkept rfl hk hprobe
    refine h.of_breaker_eq hsame fun k' hk' => hk'.step (hsame ▸ hb) (by simp) fun he => ?_
    cases he
    exact hprobe hk'

theorem Accounted.step (hmax : 1 ≤ c.maxProbes) (hkept : t.Kept) (h : t.Accounted c) :
    (t.step c m).Accounted c := by
  by_cases hb : t.breaker.circuit = .halfOpen
  swap
  · exact accounted_of_begins hmax hb
  induction m using t.move_cases c with
  | idle m hsame => rwa [hsame]
  | observe now => exact h.step_observe hb now
  | start now k hk => exact h.step_start hb hk now
  | finish now k ok call hk => exact h.step_finish hb hk now ok
  | drop now k call hk => exact h.step_drop hkept hb hk now

theorem accounted_run (hmax : 1 ≤ c.maxProbes) (now : Nat) (ms : List (Nat × Move κ)) :
    ((start now : Traffic κ).run c ms).Accounted c := by
  induction ms using List.reverseRecOn with
  | nil =>
    intro h
    cases h
  | append_singleton ms m ih =>
    rw [run, List.foldl_append]
    exact ih.step hmax (kept_run c now ms)

/-! ### The time of opening -/

theorem openedAt_run (now : Nat) {present at' : Nat} (hclock : ∀ m ∈ ms, m.1 ≤ present)
    (h : ((start now : Traffic κ).run c ms).breaker.openedAt = some at') : at' ≤ present := by
  induction ms using List.reverseRecOn with
  | nil => cases h
  | append_singleton ms m ih =>
    have hbefore := ih fun m' hm' => hclock m' (List.mem_append_left _ hm')
    rw [run, List.foldl_append, List.foldl_cons, List.foldl_nil] at h
    cases he : ((start now : Traffic κ).run c ms).event? m.2 with
    | none => exact hbefore (step_of_noEvent (c := c) he ▸ h)
    | some e =>
      rw [← run, step_of_event he] at h
      obtain rfl | hold := Breaker.openedAt_step e h
      · exact hclock m (by simp)
      · exact hbefore hold

/-! ### Calls that succeed -/

/-- Calls one after the other, each with its name and the times when it starts and succeeds. -/
def succeeding (calls : List (κ × Nat × Nat)) : List (Nat × Move κ) :=
  calls.flatMap fun (k, started, ended) => [(started, .start k), (ended, .finish k true)]

theorem ready_run (hmax : 1 ≤ c.maxProbes) (now : Nat) {present : Nat}
    (hclock : ∀ m ∈ ms, m.1 ≤ present)
    (hidle : ∀ k, ((start now : Traffic κ).run c ms).calls k = none) :
    ((start now : Traffic κ).run c ms).breaker.Ready c present where
  opened _ h := openedAt_run now hclock h
  halfOpen hhalf :=
    (accounted_run hmax now ms).places hhalf fun k hk => by simp [IsProbe, hidle k] at hk

theorem step_start_finish {started : Nat} {k : κ} (hk : t.calls k = none)
    (hin : (t.breaker.acquire c started).1.isSome) (ended : Nat) :
    ((t.step c (started, .start k)).calls k).isSome ∧
      ((t.step c (started, .start k)).step c (ended, .finish k true)).breaker =
        (t.breaker.acquire c started).2.succeed c ended ∧
      ((t.step c (started, .start k)).step c (ended, .finish k true)).calls = t.calls := by
  obtain ⟨p, hp⟩ := Option.isSome_iff_exists.1 hin
  have hstart := step_of_event (c := c) (m := (started, .start k)) (event?_start hk)
  have hcall : (t.step c (started, .start k)).calls k =
      some (t.letIn (t.breaker.acquire c started).2 p) := by
    simp [hstart, callsAt, hp, Breaker.step]
  have hend := event?_finish hcall true
  refine ⟨by simp [hcall], ?_, ?_⟩
  · rw [step_of_event hend, hstart]
    rfl
  · rw [step_of_event hend, hstart]
    simp only [callsAt, Function.update_idem]
    rw [← hk, Function.update_eq_self]

/-- Calls that are made one after the other once the breaker has cooled down, and succeed, are all
admitted, and each brings it nearer to closing. -/
theorem run_succeeding {present : Nat} (h : t.breaker.Ready c present)
    (hidle : ∀ k, t.calls k = none) (hmax : 1 ≤ c.maxProbes) (calls : List (κ × Nat × Nat))
    (hcool : ∀ call ∈ calls, present + c.cooldown ≤ call.2.1) :
    (∀ before k started ended after, calls = before ++ (k, started, ended) :: after →
        (((t.run c (succeeding before)).step c (started, .start k)).calls k).isSome) ∧
      (t.run c (succeeding calls)).breaker.Ready c present ∧
      (t.run c (succeeding calls)).breaker.missing c ≤ t.breaker.missing c - calls.length := by
  induction calls generalizing t with
  | nil => exact ⟨by simp, h, Nat.le_refl _⟩
  | cons call calls ih =>
    obtain ⟨k, started, ended⟩ := call
    obtain ⟨hadmitted, hready, hmissing⟩ :=
      h.call hmax (hcool (k, started, ended) List.mem_cons_self) ended
    obtain ⟨hin, hbreaker, hcalls⟩ := step_start_finish (hidle k) hadmitted ended
    obtain ⟨hrest, hready', hleft⟩ := ih (hbreaker ▸ hready) (fun k' => hcalls ▸ hidle k')
      fun call hcall => hcool call (List.mem_cons_of_mem _ hcall)
    refine ⟨fun before k' started' ended' after hsplit => ?_, hready', ?_⟩
    · cases before with
      | nil =>
        cases hsplit
        exact hin
      | cons first before =>
        cases hsplit
        exact hrest before k' started' ended' after rfl
    · rw [← hbreaker] at hmissing
      rw [List.length_cons]
      exact hleft.trans (by omega)

/-- **A breaker recovers.** Whatever calls there were, when none is in progress any more and the
breaker has had time to cool down, calls that succeed one after the other are all admitted, and the
breaker is closed after as many of them as it admits probes. -/
theorem recovers (hmax : 1 ≤ c.maxProbes) (now present : Nat) (ms : List (Nat × Move κ))
    (hclock : ∀ m ∈ ms, m.1 ≤ present)
    (hidle : ∀ k, ((start now : Traffic κ).run c ms).calls k = none)
    (calls : List (κ × Nat × Nat)) (hcool : ∀ call ∈ calls, present + c.cooldown ≤ call.2.1)
    (henough : c.maxProbes ≤ calls.length) :
    (∀ before k started ended after, calls = before ++ (k, started, ended) :: after →
        ((((start now : Traffic κ).run c (ms ++ succeeding before)).step c
          (started, .start k)).calls k).isSome) ∧
      ((start now : Traffic κ).run c (ms ++ succeeding calls)).breaker.circuit = .closed := by
  have hready := ready_run hmax now hclock hidle
  obtain ⟨hadmitted, hready', hleft⟩ := run_succeeding hready hidle hmax calls hcool
  simp only [run, List.foldl_append] at hadmitted hready' hleft ⊢
  refine ⟨hadmitted, hready'.closed_of_missing hmax ?_⟩
  have := Breaker.missing_le c ((start now : Traffic κ).run c ms).breaker
  simp only [run] at this
  omega

/-- A breaker that opens at the first failure and closes with two probes. -/
def twoProbes : BreakerConfig := { failureThreshold := 1, cooldown := 10, maxProbes := 2 }

/-- One of two calls fails and the breaker cools down; its two probes are dropped, and the other
call succeeds while it is half open. -/
def dropped : List (Nat × Move (Fin 4)) :=
  [(0, .start 0), (0, .start 1), (1, .finish 0 false), (11, .start 2), (12, .start 0),
    (13, .drop 2), (14, .finish 1 true), (15, .drop 0)]

theorem recovers_dropped :
    ((start 0).run twoProbes dropped).breaker.circuit = .halfOpen ∧
      ((((start 0).run twoProbes dropped).step twoProbes (25, .start 2)).calls 2).isSome ∧
      ((start 0).run twoProbes (dropped ++ succeeding [(2, 25, 26), (1, 27, 28)])).breaker.circuit =
        .closed := by
  have h := recovers (c := twoProbes) (by decide) 0 15 dropped (by decide) (by decide)
    [(2, 25, 26), (1, 27, 28)] (by decide) (by decide)
  exact ⟨by decide, by simpa [succeeding] using h.1 [] 2 25 26 [(1, 27, 28)] rfl, h.2⟩

end Traffic

end DoubleEntry
