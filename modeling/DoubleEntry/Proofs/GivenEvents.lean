import DoubleEntry.Proofs.ClaimTimes

/-!
# Iterations that were given events

An iteration asks for nothing but the time, its claim, the publishing of events and their
settlement, and makes one claim.  Once it was given events it comes to its end if only the publisher
answers, and it does not end without having settled them (`Relay.always_runOnce_given`).

## Main definitions

* `Program.Asks`: all requests of a program are of a kind.
* `Request.OfIteration`: the requests of an iteration.
* `Relay.EndsWithin`: a program ends after so many answers.
* `Relay.Settled`: a settlement was answered.
* `Relay.Given`: what an iteration does that was given events.
-/

namespace DoubleEntry

/-! ### Requests of programs -/

namespace Program

variable {α : Type} {P : Request → Prop}

/-- Every request of the program satisfies `P`. -/
inductive Asks (P : Request → Prop) : Program α → Prop
  | done (a : α) : Asks P (.done a)
  | crash : Asks P .crash
  | ask {r : Request} {k : r.Answer → Program α} (hr : P r) (h : ∀ a, Asks P (k a)) :
    Asks P (.ask r k)

theorem Asks.resume {r : Request} {k : r.Answer → Program α} (h : ∀ a, (k a).Asks P)
    (a : Option r.Answer) : (Program.resume k a).Asks P := by
  cases a with
  | none => exact .crash
  | some a => exact h a

theorem Asks.trace {p q : Program α} {es : List Exchange} (h : p.Asks P) (ht : p.Trace es q) :
    q.Asks P := by
  induction ht with
  | nil p => exact h
  | @cons r k a es q _ ih =>
    cases h with
    | ask _ hk => exact ih (.resume hk a)

end Program

/-- The requests of an iteration of a worker. -/
def Request.OfIteration (c : RelayConfig) : Request → Prop
  | .now | .publish _ _ _ => True
  | .store (.claim _ owner _ _) => owner = c.workerId
  | .store (.settle _ _ _ owner) => owner = c.workerId
  | _ => False

/-- The request is answered wherever the publisher answers. -/
def Request.IsAnswered (r : Request) : Prop :=
  ∀ (w : Surroundings) (s : Store), w.publisher.isSome → (w.answer r s).1.isSome

/-- Events are asked for. -/
def Exchange.asksForEvents : Exchange → Bool
  | ⟨.store (.claim _ _ _ _), _⟩ => true
  | _ => false

namespace Relay

variable {c : RelayConfig} {events : List OutboxEvent} {count : Nat}

theorem asks_settle (now : Instant) :
    (settle c events count now).Asks (Request.OfIteration c) := by
  refine .ask rfl fun a => ?_
  cases a <;> exact .done _

theorem asks_finish : (finish c events count).Asks (Request.OfIteration c) := by
  unfold finish
  split_ifs
  · exact asks_settle _
  · exact .ask trivial asks_settle

theorem asks_publishAll (queue : List OutboxEvent) :
    (publishAll c events count queue).Asks (Request.OfIteration c) := by
  induction queue generalizing count with
  | nil => exact asks_finish
  | cons e queue ih =>
    refine .ask trivial fun a => ?_
    cases a with
    | error err => exact asks_finish
    | ok u => exact ih

theorem asks_runOnce (c : RelayConfig) : (runOnce c).Asks (Request.OfIteration c) := by
  refine .ask trivial fun now => .ask rfl fun a => ?_
  rcases a with e | (_ | ⟨e, events⟩)
  · exact .done _
  · exact .done _
  · exact asks_publishAll (e :: events)

/-! ### The end of an iteration -/

/-- The program ends after so many answers, and its requests are answered. -/
inductive EndsWithin : Nat → Program RunOutcome → Prop
  | done (n : Nat) (o : RunOutcome) : EndsWithin n (.done o)
  | ask {n : Nat} {r : Request} {k : r.Answer → Program RunOutcome} (hr : r.IsAnswered)
    (h : ∀ a, EndsWithin n (k a)) : EndsWithin (n + 1) (.ask r k)

theorem EndsWithin.mono {n m : Nat} {p : Program RunOutcome} (h : EndsWithin n p) (hnm : n ≤ m) :
    EndsWithin m p := by
  induction h generalizing m with
  | done n o => exact .done m o
  | @ask n r k hr _ ih =>
    obtain ⟨m, rfl⟩ : ∃ l, m = l + 1 := ⟨m - 1, by omega⟩
    exact .ask hr fun a => ih a (Nat.le_of_succ_le_succ hnm)

theorem EndsWithin.trace {n : Nat} {p q : Program RunOutcome} {es : List Exchange}
    (h : EndsWithin n p) (ht : p.Trace es q) : q = .crash ∨ EndsWithin n q := by
  induction ht generalizing n with
  | nil p => exact .inr h
  | @cons r k a es q ht ih =>
    cases h with
    | @ask n _ _ _ hk =>
      cases a with
      | none =>
        cases ht
        exact .inl rfl
      | some a => exact (ih (hk a)).imp_right fun h => h.mono (Nat.le_succ n)

theorem isAnswered_settle (published : List EventId) (now : Instant) (rest : List EventId)
    (owner : String) : Request.IsAnswered (.store (.settle published now rest owner)) :=
  fun _ s _ => Surroundings.isSome_ofOutcome (s.settle_ne_crashed published now rest owner)

theorem endsWithin_settle (now : Instant) : EndsWithin 1 (settle c events count now) := by
  refine .ask (isAnswered_settle _ _ _ _) fun a => ?_
  cases a <;> exact .done 0 _

theorem endsWithin_finish : EndsWithin 2 (finish c events count) := by
  unfold finish
  split_ifs
  · exact (endsWithin_settle _).mono (Nat.le_succ 1)
  · exact .ask (fun _ _ _ => rfl) endsWithin_settle

theorem endsWithin_publishAll (queue : List OutboxEvent) :
    EndsWithin (queue.length + 2) (publishAll c events count queue) := by
  induction queue generalizing count with
  | nil => exact endsWithin_finish
  | cons e queue ih =>
    have hlength : (e :: queue).length + 2 = queue.length + 2 + 1 := rfl
    rw [hlength]
    refine .ask (fun _ _ hw => hw) fun a => ?_
    cases a with
    | error err => exact endsWithin_finish.mono (by omega)
    | ok u => exact ih

/-- A settlement was answered. -/
def Settled (es : List Exchange) : Prop :=
  ∃ published now rest owner a, ⟨.store (.settle published now rest owner), some a⟩ ∈ es

theorem Settled.cons {es : List Exchange} (h : Settled es) (ex : Exchange) :
    Settled (ex :: es) := by
  obtain ⟨published, now, rest, owner, a, hmem⟩ := h
  exact ⟨published, now, rest, owner, a, List.mem_cons_of_mem ex hmem⟩

theorem settled_of_settle (now : Instant) :
    (settle c events count now).Always fun es q => ∀ o, q = .done o → Settled es := by
  refine Program.always_ask nofun nofun fun a => ?_
  rcases a with e | u
  · exact Program.always_done fun _ _ => ⟨_, _, _, _, _, List.mem_cons_self⟩
  · exact Program.always_done fun _ _ => ⟨_, _, _, _, _, List.mem_cons_self⟩

theorem settled_of_finish :
    (finish c events count).Always fun es q => ∀ o, q = .done o → Settled es := by
  unfold finish
  split_ifs
  · exact settled_of_settle _
  · exact Program.always_ask nofun nofun fun now =>
      (settled_of_settle now).mono fun _ _ h o ho => (h o ho).cons _

theorem settled_of_publishAll (queue : List OutboxEvent) :
    (publishAll c events count queue).Always fun es q => ∀ o, q = .done o → Settled es := by
  induction queue generalizing count with
  | nil => exact settled_of_finish
  | cons e queue ih =>
    refine Program.always_ask nofun nofun fun a => ?_
    cases a with
    | error err => exact settled_of_finish.mono fun _ _ h o ho => (h o ho).cons _
    | ok u => exact ih.mono fun _ _ h o ho => (h o ho).cons _

/-! ### The whole iteration -/

/-- What an iteration has done since it was given events, and what is left of it. -/
structure Given (c : RelayConfig) (events : List OutboxEvent) (es : List Exchange)
    (q : Program RunOutcome) : Prop where
  nonempty : events ≠ []
  publishing : Publishing c events 0 es
  settled : ∀ o, q = .done o → Settled es
  ends : q = .crash ∨ EndsWithin (events.length + 2) q

/-- **Every trace of an iteration** is one that was given nothing so far, or begins with the time,
the claim and what was given. -/
theorem always_runOnce_given (c : RelayConfig) : (runOnce c).Always fun es q =>
    Log.claimed es = [] ∨ ∃ now events es', es = ⟨.now, some now⟩ ::
      ⟨.store (.claim c.batchSize c.workerId now (ttl c)), some (.ok events)⟩ :: es' ∧
        Given c events es' q := by
  refine Program.always_ask (.inl rfl) (.inl rfl) fun now => ?_
  refine Program.always_ask (.inl rfl) (.inl rfl) fun a => ?_
  rcases a with e | (_ | ⟨e, events⟩)
  · exact Program.always_done (.inl rfl)
  · exact Program.always_done (.inl rfl)
  · intro es q ht
    have hp : Publishing c (e :: events) 0 es := always_publishAll (e :: events) rfl ht
    exact .inr ⟨now, e :: events, es, rfl, List.cons_ne_nil _ _, hp,
      settled_of_publishAll _ ht, (endsWithin_publishAll _).trace ht⟩

/-- After the claim by which an iteration was given events, it has not been given others. -/
theorem Given.after_eq {es before after : List Exchange} {q : Program RunOutcome}
    (h : Given c events es q) {now now' : Instant} {given : List OutboxEvent} {ex : Exchange}
    (hclaim : ex.claim? = some (now', given)) (hshape : before ++ ex :: after = ⟨.now, some now⟩ ::
      ⟨.store (.claim c.batchSize c.workerId now (ttl c)), some (.ok events)⟩ :: es) :
    after = es := by
  rcases before with _ | ⟨_, _ | ⟨_, before⟩⟩
  · obtain ⟨rfl, -⟩ := List.cons_eq_cons.1 hshape
    cases hclaim
  · exact (List.cons_eq_cons.1 (List.cons_eq_cons.1 hshape).2).2
  -- no claim is made while events are published
  · have hes : before ++ ex :: after = es :=
      (List.cons_eq_cons.1 (List.cons_eq_cons.1 hshape).2).2
    have hnone := List.filterMap_eq_nil_iff.1 h.publishing.claims_eq_nil ex
      (hes ▸ List.mem_append_right before List.mem_cons_self)
    rw [hclaim] at hnone
    cases hnone

/-- **No iteration ends without having settled** the events that it was given. -/
theorem settled_of_trace {es : List Exchange} {o : RunOutcome}
    (h : (runOnce c).Trace es (.done o)) (hgiven : Log.claimed es ≠ []) : Settled es := by
  obtain hnone | ⟨now, events, es, rfl, hevents⟩ := always_runOnce_given c h
  · exact absurd hnone hgiven
  · exact ((hevents.settled o rfl).cons _).cons _

/-! ### Claims -/

theorem always_runOnce_once (c : RelayConfig) :
    (runOnce c).Always fun es _ => (es.filter Exchange.asksForEvents).length ≤ 1 := by
  refine Program.always_ask (Nat.zero_le 1) (Nat.zero_le 1) fun now => ?_
  refine Program.always_ask (Nat.zero_le 1) (Nat.le_refl 1) fun a => ?_
  rcases a with e | (_ | ⟨e, events⟩)
  · exact Program.always_done (Nat.le_refl 1)
  · exact Program.always_done (Nat.le_refl 1)
  · intro es q ht
    have h : Publishing c (e :: events) 0 es := always_publishAll (e :: events) rfl ht
    have hnone : es.filter Exchange.asksForEvents = [] := by
      refine List.filter_eq_nil_iff.2 fun ex hex => ?_
      unfold Exchange.asksForEvents
      split
      · exact absurd hex h.unclaiming
      · exact Bool.false_ne_true
    show ((⟨.store (.claim c.batchSize c.workerId now (ttl c)), some (.ok (e :: events))⟩ ::
      es.filter Exchange.asksForEvents).length) ≤ 1
    rw [hnone]
    exact Nat.le_refl 1

theorem always_runOnce_asked (c : RelayConfig) : (runOnce c).Always fun es q =>
    ∀ o, q = .done o → ∃ ex ∈ es, ex.asksForEvents = true := by
  refine Program.always_ask nofun nofun fun now => Program.always_ask nofun nofun fun a => ?_
  exact fun es q _ o _ => ⟨_, List.mem_cons_of_mem _ List.mem_cons_self, rfl⟩

end Relay

end DoubleEntry
