import DoubleEntry.Service.Program

/-!
# Traces of programs

What a program asks and is answered, request by request.  A request without an answer is one that
crashed, and its program with it.

A fact about every trace of a program is proved by following the program
(`Program.Always`): one step for each request, one case for each kind of answer, and a lemma for
each part of the program that has a name of its own.

## Main definitions

* `Exchange`: a request with its answer.
* `Program.Trace p es q`: after the exchanges `es`, what is left of `p` is `q`.
* `Program.Always p P`: every trace of `p`, with what is left after it, satisfies `P`.
* `Program.noting`: a world in which all that is exchanged is noted.
* `Program.Gives P p`: every answer of `p` satisfies `P`.
-/

namespace DoubleEntry

/-- A request with its answer; none if the request crashed. -/
structure Exchange where
  request : Request
  answer : Option request.Answer

namespace Program

variable {α β : Type}

/-- How a program goes on after a request. -/
def resume {r : Request} (k : r.Answer → Program α) : Option r.Answer → Program α
  | some a => k a
  | none => .crash

/-- After the exchanges `es`, what is left of the program `p` is `q`. -/
inductive Trace : Program α → List Exchange → Program α → Prop
  | nil (p : Program α) : Trace p [] p
  | cons {r : Request} {k : r.Answer → Program α} {a : Option r.Answer} {es : List Exchange}
      {q : Program α} : Trace (resume k a) es q → Trace (.ask r k) (⟨r, a⟩ :: es) q

/-- Every trace of the program, with what is left of the program after it, satisfies `P`. -/
def Always (p : Program α) (P : List Exchange → Program α → Prop) : Prop :=
  ∀ ⦃es : List Exchange⦄ ⦃q : Program α⦄, p.Trace es q → P es q

/-! ### Following a program -/

theorem Trace.snoc {p : Program α} {es : List Exchange} {r : Request} {k : r.Answer → Program α}
    (h : p.Trace es (.ask r k)) (a : Option r.Answer) :
    p.Trace (es ++ [⟨r, a⟩]) (resume k a) := by
  generalize hq : Program.ask r k = q at h
  induction h with
  | nil p => subst hq; exact .cons (.nil _)
  | cons _ ih => exact .cons (ih hq)

theorem Always.mono {p : Program α} {P Q : List Exchange → Program α → Prop} (h : p.Always P)
    (hPQ : ∀ es q, P es q → Q es q) : p.Always Q :=
  fun _ _ ht => hPQ _ _ (h ht)

theorem always_done {a : α} {P : List Exchange → Program α → Prop} (h : P [] (.done a)) :
    (Program.done a).Always P := by
  rintro es q ⟨⟩
  exact h

theorem always_crash {P : List Exchange → Program α → Prop} (h : P [] .crash) :
    (Program.crash : Program α).Always P := by
  rintro es q ⟨⟩
  exact h

/-- A request is followed in three cases: it waits, it crashes, or it is answered. -/
theorem always_ask {r : Request} {k : r.Answer → Program α} {P : List Exchange → Program α → Prop}
    (waits : P [] (.ask r k)) (crashes : P [⟨r, none⟩] .crash)
    (answered : ∀ a, (k a).Always fun es q => P (⟨r, some a⟩ :: es) q) :
    (Program.ask r k).Always P := by
  intro es q h
  cases h with
  | nil => exact waits
  | @cons _ _ a es q h =>
    cases a with
    | none => cases h; exact crashes
    | some a => exact answered a h

/-! ### Programs that are carried out -/

theorem run_ask {σ : Type} {w : (r : Request) → σ → Option r.Answer × σ} {r : Request}
    {k : r.Answer → Program α} {s s' : σ} {a : r.Answer} (h : w r s = (some a, s')) :
    (Program.ask r k).run w s = (k a).run w s' := by
  rw [Program.run, h]

theorem run_crash {σ : Type} {w : (r : Request) → σ → Option r.Answer × σ} {r : Request}
    {k : r.Answer → Program α} {s s' : σ} (h : w r s = (none, s')) :
    (Program.ask r k).run w s = (none, s') := by
  rw [Program.run, h]

/-- The world in which all that is exchanged is noted. -/
def noting {σ : Type} (w : (r : Request) → σ → Option r.Answer × σ) :
    (r : Request) → σ × List Exchange → Option r.Answer × (σ × List Exchange)
  | r, (s, es) => ((w r s).1, ((w r s).2, es ++ [⟨r, (w r s).1⟩]))

/-- What is noted while a program is carried out is a trace of it. -/
theorem exists_trace_of_noting {σ : Type} (w : (r : Request) → σ → Option r.Answer × σ)
    (p : Program α) (s : σ) (es : List Exchange) :
    ∃ more q, p.Trace more q ∧ (p.run (noting w) (s, es)).2.2 = es ++ more := by
  induction p generalizing s es with
  | done a => exact ⟨[], _, .nil _, (List.append_nil es).symm⟩
  | crash => exact ⟨[], _, .nil _, (List.append_nil es).symm⟩
  | ask r k ih =>
    obtain ⟨a, s', hw⟩ : ∃ a s', w r s = (a, s') := ⟨_, _, rfl⟩
    have hnoting : noting w r (s, es) = (a, (s', es ++ [⟨r, a⟩])) := by
      simp only [noting, hw]
    cases a with
    | none => exact ⟨[⟨r, none⟩], .crash, .cons (.nil _), by rw [run_crash hnoting]⟩
    | some a =>
      obtain ⟨more, q, htrace, hrun⟩ := ih a s' (es ++ [⟨r, some a⟩])
      refine ⟨⟨r, some a⟩ :: more, q, .cons htrace, ?_⟩
      rw [run_ask hnoting, hrun, List.append_assoc]
      rfl

/-! ### Programs with their result changed -/

theorem resume_map (f : α → β) {r : Request} (k : r.Answer → Program α) (a : Option r.Answer) :
    resume (fun a => (k a).map f) a = (resume k a).map f := by
  cases a <;> rfl

theorem exists_trace_of_trace_map {f : α → β} {p : Program α} {es : List Exchange} {q : Program β}
    (h : (p.map f).Trace es q) : ∃ q', p.Trace es q' ∧ q = q'.map f := by
  generalize hp : p.map f = p' at h
  induction h generalizing p with
  | nil => exact ⟨p, .nil p, hp.symm⟩
  | cons _ ih =>
    -- only a program that asks is one that asks with its result changed
    cases p with
    | done a => cases hp
    | crash => cases hp
    | ask r k =>
      cases hp
      obtain ⟨q', ht, hq⟩ := ih (resume_map f k _).symm
      exact ⟨q', .cons ht, hq⟩

theorem run_map {σ : Type} {w : (r : Request) → σ → Option r.Answer × σ} (f : α → β)
    (p : Program α) (s : σ) : (p.map f).run w s = ((p.run w s).1.map f, (p.run w s).2) := by
  induction p generalizing s with
  | done a => rfl
  | crash => rfl
  | ask r k ih =>
    have hmap : (Program.ask r k).map f = .ask r fun a => (k a).map f := rfl
    rw [hmap, Program.run, Program.run]
    rcases w r s with ⟨_ | a, s⟩
    · rfl
    · exact ih a s

theorem map_eq_done {f : α → β} {p : Program α} {b : β} (h : p.map f = .done b) :
    ∃ a, p = .done a ∧ f a = b := by
  cases p with
  | done a => cases h; exact ⟨a, rfl, rfl⟩
  | crash => cases h
  | ask r k => cases h

/-! ### Answers -/

/-- Every answer of the program satisfies `P`. -/
inductive Gives (P : α → Prop) : Program (Except ServiceError α) → Prop
  | done {r : Except ServiceError α} (h : ∀ a, r = .ok a → P a) : Gives P (.done r)
  | crash : Gives P .crash
  | ask {r : Request} {k : r.Answer → Program (Except ServiceError α)} (h : ∀ x, Gives P (k x)) :
    Gives P (.ask r k)

variable {P : α → Prop}

theorem Gives.of_run {p : Program (Except ServiceError α)} (h : p.Gives P) {σ : Type}
    {w : (r : Request) → σ → Option r.Answer × σ} {s : σ} {a : α}
    (ha : (p.run w s).1 = some (.ok a)) : P a := by
  induction h generalizing s with
  | done h => exact h a (Option.some.inj ha)
  | crash => cases ha
  | @ask r k _ ih =>
    rw [run] at ha
    rcases hw : w r s with ⟨_ | x, s'⟩ <;> rw [hw] at ha
    · cases ha
    · exact ih x ha

theorem gives_of_forall (h : ∀ a, P a) (p : Program (Except ServiceError α)) : p.Gives P := by
  induction p with
  | done r => exact .done fun a _ => h a
  | crash => exact .crash
  | ask r k ih => exact .ask ih

theorem gives_fail (e : ServiceError) : (fail e : Program (Except ServiceError α)).Gives P :=
  .done fun _ h => by cases h

theorem gives_answer {a : α} (h : P a) : (answer a).Gives P :=
  .done fun _ h' => Except.ok.inj h' ▸ h

theorem gives_stored {k : β → Program (Except ServiceError α)} (h : ∀ b, (k b).Gives P)
    (x : Except StoreError β) : (stored k x).Gives P := by
  cases x with
  | ok b => exact h b
  | error e => exact gives_fail _

theorem gives_map_ok {f : β → α} (h : ∀ b, P (f b)) (p : Program (Except ServiceError β)) :
    (p.map fun r => r.map f).Gives P := by
  induction p with
  | done r =>
    refine .done fun a ha => ?_
    cases r with
    | error e => cases ha
    | ok b => exact Except.ok.inj ha ▸ h b
  | crash => exact .crash
  | ask r k ih => exact .ask ih

end Program

end DoubleEntry
