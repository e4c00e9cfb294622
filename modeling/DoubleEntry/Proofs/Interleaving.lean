import DoubleEntry.Proofs.Trace
import DoubleEntry.Store.Basic
import Mathlib.Data.List.Infix
import Mathlib.Logic.Function.Basic

/-!
# Programs interleaved over one store

Any number of programs are carried out over one store, one request at a time and in any order.  The
store answers its requests by itself; all other requests are answered by the surroundings in any
way, a crash included.  Between two requests the next write may be made to fail.

Everything that happens is kept in a history.  The exchanges of one program, taken out of the
history, are a trace of the program (`Pool.trace_log`), and the history only grows
(`Pool.history_isPrefix_after`).

## Main definitions

* `Surroundings`: what answers the requests that do not go to the store.
* `Pool`: the store, what is left of each program, and the history.
* `Move`, `Pool.move`, `Pool.after`: what can happen next, and the pool after it has.
* `Pool.log`: the exchanges of one program. `Pool.gather`: what all exchanges amount to.
-/

namespace DoubleEntry

/-- The answers of everything but the store; none is a crash. -/
structure Surroundings where
  accounts : (c : AccountsCall) → Option (Except GatewayError c.Answer)
  audit : Option (Except AuditError Unit)
  publisher : Option (Except PublishError Unit)
  clock : Instant
  freshId : Uuid

namespace Surroundings

/-- What the store answers; none if it crashed. -/
def ofOutcome {α : Type} : Outcome α → Option (Except StoreError α)
  | .ok a => some (.ok a)
  | .error (.refused e) => some (.error e)
  | .error .crashed => none

/-- The answer to a request, and the store after it. -/
def answer (w : Surroundings) : (r : Request) → Store → Option r.Answer × Store
  | .store q, s => (ofOutcome (s.serve q).1, (s.serve q).2)
  | .accounts c, s => (w.accounts c, s)
  | .audit _, s => (w.audit, s)
  | .publish _ _ _, s => (w.publisher, s)
  | .now, s => (some w.clock, s)
  | .freshId, s => (some w.freshId, s)

/-- Surroundings that grant everything, with the instant and the identifier that they give. -/
def granting (clock : Instant) (freshId : Uuid) : Surroundings where
  accounts
    | .validate _ _ _ _ => some (.ok .accepted)
    | .reserve _ | .release _ => some (.ok ⟨true, "done", none⟩)
    | .summaries _ => some (.ok [])
  audit := some (.ok ())
  publisher := some (.ok ())
  clock := clock
  freshId := freshId

end Surroundings

/-- An exchange, and the program it belongs to. -/
structure Event (ι : Type) where
  call : ι
  exchange : Exchange

/-- Programs in progress over one store. -/
structure Pool (ι α : Type) where
  store : Store
  /-- What is left of each program. -/
  rest : ι → Program α
  history : List (Event ι)

/-- What can happen to a pool next. -/
inductive Move (ι : Type) where
  /-- The next write is made to fail. -/
  | failNext
  /-- A program makes its next request, if it has one. -/
  | turn (i : ι) (w : Surroundings)

namespace Pool

variable {ι α : Type} [DecidableEq ι]

/-- Programs that have not begun. -/
def start (s : Store) (p : ι → Program α) : Pool ι α := ⟨s, p, []⟩

/-- The pool after the next request of a program. -/
def turn (i : ι) (w : Surroundings) (x : Pool ι α) : Pool ι α :=
  match x.rest i with
  | .ask r k =>
    { store := (w.answer r x.store).2
      rest := Function.update x.rest i (Program.resume k (w.answer r x.store).1)
      history := x.history ++ [⟨i, r, (w.answer r x.store).1⟩] }
  | _ => x

/-- The pool after a move. -/
def move (x : Pool ι α) : Move ι → Pool ι α
  | .failNext => { x with store := x.store.failNext }
  | .turn i w => x.turn i w

/-- The pool after some moves. -/
def after (x : Pool ι α) (ms : List (Move ι)) : Pool ι α := ms.foldl move x

/-- What the exchanges amount to, each with its program. -/
def gather {β : Type} (g : Exchange → Option β) (x : Pool ι α) : List (ι × β) :=
  x.history.filterMap fun e => (g e.exchange).map fun b => (e.call, b)

/-- The exchanges of one program. -/
def log (x : Pool ι α) (i : ι) : List Exchange :=
  x.history.filterMap fun e => if e.call = i then some e.exchange else none

@[simp] theorem after_nil (x : Pool ι α) : x.after [] = x := rfl

@[simp] theorem after_cons (x : Pool ι α) (m : Move ι) (ms : List (Move ι)) :
    x.after (m :: ms) = (x.move m).after ms := rfl

theorem after_append (x : Pool ι α) (ms ms' : List (Move ι)) :
    x.after (ms ++ ms') = (x.after ms).after ms' := by
  simp [after]

/-- A turn does nothing to a program at its end; otherwise it makes one request. -/
theorem turn_cases (x : Pool ι α) (i : ι) (w : Surroundings) :
    x.turn i w = x ∨ ∃ r k, x.rest i = .ask r k ∧
      x.turn i w = ⟨(w.answer r x.store).2,
        Function.update x.rest i (Program.resume k (w.answer r x.store).1),
        x.history ++ [⟨i, r, (w.answer r x.store).1⟩]⟩ := by
  unfold turn
  cases h : x.rest i with
  | done a => exact .inl rfl
  | crash => exact .inl rfl
  | ask r k => exact .inr ⟨r, k, rfl, rfl⟩

theorem after_induction {P : Pool ι α → Prop} {x : Pool ι α} (start : P x)
    (step : ∀ y m, P y → P (y.move m)) (ms : List (Move ι)) : P (x.after ms) := by
  induction ms generalizing x with
  | nil => exact start
  | cons m ms ih => exact ih (step x m start)

/-! ### The history -/

theorem history_isPrefix_move (x : Pool ι α) (m : Move ι) : x.history <+: (x.move m).history := by
  cases m with
  | failNext => exact List.prefix_rfl
  | turn i w =>
    obtain h | ⟨r, k, -, h⟩ := x.turn_cases i w
    · simp [move, h]
    · simp [move, h]

theorem history_isPrefix_after (x : Pool ι α) (ms : List (Move ι)) :
    x.history <+: (x.after ms).history :=
  after_induction (P := fun y => x.history <+: y.history) List.prefix_rfl
    (fun y m h => h.trans (history_isPrefix_move y m)) ms

theorem mem_log {x : Pool ι α} {i : ι} {e : Exchange} : e ∈ x.log i ↔ ⟨i, e⟩ ∈ x.history := by
  simp only [log, List.mem_filterMap, Option.ite_none_right_eq_some, Option.some.injEq]
  constructor
  · rintro ⟨⟨j, e'⟩, h, rfl, rfl⟩
    exact h
  · intro h
    exact ⟨_, h, rfl, rfl⟩

theorem log_isPrefix_after (x : Pool ι α) (ms : List (Move ι)) (i : ι) :
    x.log i <+: (x.after ms).log i :=
  (history_isPrefix_after x ms).filterMap _

theorem mem_log_of_append {x : Pool ι α} {past : List (Event ι)} {i : ι} {ex : Exchange}
    (h : x.history = past ++ [⟨i, ex⟩]) : ex ∈ x.log i := by
  rw [mem_log, h]
  exact List.mem_append_right _ List.mem_cons_self

theorem history_turn {x : Pool ι α} {i : ι} {r : Request} {k : r.Answer → Program α}
    (h : x.rest i = .ask r k) (w : Surroundings) :
    (x.move (.turn i w)).history = x.history ++ [⟨i, r, (w.answer r x.store).1⟩] := by
  simp [move, turn, h]

/-- A program has made a request, and was answered, from the turn at which it made it. -/
theorem log_turn_isPrefix {x : Pool ι α} {i : ι} {r : Request} {k : r.Answer → Program α}
    (h : x.rest i = .ask r k) (w : Surroundings) (ms : List (Move ι)) :
    x.log i ++ [⟨r, (w.answer r x.store).1⟩] <+: (x.after (.turn i w :: ms)).log i := by
  have hlog : (x.move (.turn i w)).log i = x.log i ++ [⟨r, (w.answer r x.store).1⟩] := by
    simp [log, history_turn h w]
  exact hlog ▸ log_isPrefix_after (x.move (.turn i w)) ms i

theorem mem_gather {β : Type} {g : Exchange → Option β} {x : Pool ι α} {i : ι} {b : β} :
    (i, b) ∈ x.gather g ↔ b ∈ (x.log i).filterMap g := by
  simp only [gather, List.mem_filterMap, mem_log, Option.map_eq_some_iff]
  constructor
  · rintro ⟨⟨j, e⟩, he, b', hb, h⟩
    cases h
    exact ⟨e, he, hb⟩
  · rintro ⟨e, he, hb⟩
    exact ⟨⟨i, e⟩, he, b, hb, rfl⟩

theorem filter_gather {β : Type} {g : Exchange → Option β} {x : Pool ι α} {i : ι} {P : β → Bool}
    (h : ∀ j b, (j, b) ∈ x.gather g → P b = true → j = i) :
    (x.gather g).filter (fun b => P b.2) =
      (((x.log i).filterMap g).filter P).map fun b => (i, b) := by
  simp only [gather, log] at h ⊢
  generalize x.history = es at h
  induction es with
  | nil => rfl
  | cons e es ih =>
    have hes := ih fun j b hm => h j b (by
      rw [List.filterMap_cons]
      split
      · exact hm
      · exact List.mem_cons_of_mem _ hm)
    cases hg : g e.exchange with
    | none => by_cases hi : e.call = i <;> simp [hg, hi, hes]
    | some b =>
      by_cases hi : e.call = i
      · cases hP : P b <;> simp [hg, hi, hP, hes]
      -- what another program does is not looked for
      · have hP : P b = false := by
          by_contra hP
          exact hi (h e.call b (by simp [hg]) (by simpa using hP))
        simp [hg, hi, hP, hes]

/-- **The moment of an event**: the moves before it, the request that was made and its answer, and
the moves after it. -/
theorem exists_moment (x : Pool ι α) (ms : List (Move ι)) {h h' : List (Event ι)} {e : Event ι}
    (hh : (x.after ms).history = x.history ++ h ++ e :: h') :
    ∃ ms₁ ms₂ w r k, ms = ms₁ ++ .turn e.call w :: ms₂ ∧ (x.after ms₁).history = x.history ++ h ∧
      (x.after ms₁).rest e.call = .ask r k ∧
      e = ⟨e.call, r, (w.answer r (x.after ms₁).store).1⟩ := by
  induction ms using List.reverseRecOn generalizing h' with
  | nil =>
    have hlen := congrArg List.length hh
    simp only [after_nil, List.length_append, List.length_cons] at hlen
    omega
  | append_singleton ms m ih =>
    -- where the event is there before the last move
    have later : ∀ {h''}, (x.after ms).history = x.history ++ h ++ e :: h'' →
        ∃ ms₁ ms₂ w r k, ms ++ [m] = ms₁ ++ .turn e.call w :: ms₂ ∧
          (x.after ms₁).history = x.history ++ h ∧ (x.after ms₁).rest e.call = .ask r k ∧
          e = ⟨e.call, r, (w.answer r (x.after ms₁).store).1⟩ := by
      intro h'' hh
      obtain ⟨ms₁, ms₂, w, r, k, rfl, hrest⟩ := ih hh
      exact ⟨ms₁, ms₂ ++ [m], w, r, k, by simp, hrest⟩
    rw [after_append] at hh
    cases m with
    | failNext => exact later hh
    | turn i w =>
      obtain hx | ⟨r, k, hk, hx⟩ := (x.after ms).turn_cases i w
      · rw [after_cons, after_nil, move, hx] at hh
        exact later hh
      · rw [after_cons, after_nil, move, hx] at hh
        obtain rfl | ⟨h'', e', rfl⟩ := List.eq_nil_or_concat h'
        -- the last move is the moment
        · obtain ⟨hpast, he⟩ := List.append_inj' hh rfl
          obtain rfl := (List.cons.inj he).1
          exact ⟨ms, [], w, r, k, rfl, hpast, hk, rfl⟩
        · rw [List.concat_eq_append, ← List.cons_append, ← List.append_assoc] at hh
          exact later (List.append_inj' hh rfl).1

theorem rest_move_of_done {x : Pool ι α} {i : ι} {a : α} (h : x.rest i = .done a) (m : Move ι) :
    (x.move m).rest i = .done a := by
  cases m with
  | failNext => exact h
  | turn j w =>
    obtain hx | ⟨r, k, hj, hx⟩ := x.turn_cases j w
    · rw [move, hx, h]
    · have hij : i ≠ j := by
        rintro rfl
        rw [h] at hj
        cases hj
      simp [move, hx, hij, h]

theorem log_after_of_done {x : Pool ι α} {i : ι} {a : α} (h : x.rest i = .done a)
    (ms : List (Move ι)) : (x.after ms).log i = x.log i := by
  refine (after_induction (P := fun y => y.rest i = .done a ∧ y.log i = x.log i) ⟨h, rfl⟩ ?_ ms).2
  rintro y m ⟨hy, hl⟩
  refine ⟨rest_move_of_done hy m, ?_⟩
  cases m with
  | failNext => exact hl
  | turn j w =>
    obtain hx | ⟨r, k, hj, hx⟩ := y.turn_cases j w
    · rw [move, hx, hl]
    · have hij : j ≠ i := by
        rintro rfl
        rw [hy] at hj
        cases hj
      rw [move, hx, ← hl]
      simp [log, hij]

theorem trace_log (s : Store) (p : ι → Program α) (ms : List (Move ι)) (i : ι) :
    (p i).Trace (((start s p).after ms).log i) (((start s p).after ms).rest i) := by
  refine after_induction (P := fun x => (p i).Trace (x.log i) (x.rest i)) (.nil _) ?_ ms
  intro x m h
  cases m with
  | failNext => exact h
  | turn j w =>
    obtain hx | ⟨r, k, hj, hx⟩ := x.turn_cases j w
    · rwa [move, hx]
    · rw [move, hx]
      by_cases hij : j = i
      · subst hij
        rw [hj] at h
        simpa [log] using h.snoc (w.answer r x.store).1
      · simpa [log, hij, Ne.symm hij] using h

end Pool

end DoubleEntry
