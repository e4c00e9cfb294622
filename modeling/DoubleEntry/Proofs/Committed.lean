import DoubleEntry.Proofs.Effects
import DoubleEntry.Proofs.Interleaving

/-!
# The store is what was committed

Whatever programs run over a store in memory, and in whatever order, its tables hold at any time the
rows that they held at first and after these the rows of all units of work that succeeded, in the
order of their commits; only who works on an event and whether it was published may differ
(`Pool.bare_memory`).  So rows are never lost and never change.

## Main definitions

* `Pool.commits`, `Pool.committed`: the rows that were inserted.
* `Pool.onMemory`: programs that have not begun, over a store in memory.
-/

namespace DoubleEntry

namespace Pool

variable {ι α : Type} [DecidableEq ι]

/-- The data of the store in memory. -/
def memory (x : Pool ι α) : Memory := x.store.memory

/-- The rows of each unit of work that inserted some, in the order of their commits. -/
def commits (x : Pool ι α) : List (List Row) := x.history.filterMap fun e => e.exchange.commit?

/-- The rows that were inserted, in the order of their commits. -/
def committed (x : Pool ι α) : List Row := x.commits.flatten

/-- Programs that have not begun, over a store in memory. -/
def onMemory (m : Memory) (failsNext : Bool) (p : ι → Program α) : Pool ι α :=
  start (.ofMemory m failsNext) p

/-- The store is one in memory. -/
def IsInMemory (x : Pool ι α) : Prop := ∃ f, x.store = .ofMemory x.memory f

theorem answer_ofMemory (w : Surroundings) (r : Request) (m : Memory) (f : Bool) :
    ∃ m' f', (w.answer r (.ofMemory m f)).2 = .ofMemory m' f' ∧
      m'.bare =
        (m.addAll ((Exchange.commit? ⟨r, (w.answer r (.ofMemory m f)).1⟩).getD [])).bare ∧
      (m.Sound → m'.Sound) := by
  cases r with
  | store q =>
    simp only [Surroundings.answer, Store.serve_ofMemory]
    cases hw : q.writes with
    | true =>
      rcases h : q.work.run m with ⟨_ | a, m'⟩
      · refine ⟨m, f, rfl, ?_, id⟩
        rename_i e
        cases e <;> cases q <;> rfl
      · cases f with
        -- the write was made to fail: nothing is committed
        | true =>
          refine ⟨m, false, rfl, ?_, id⟩
          cases q <;> rfl
        | false =>
          refine ⟨m', false, rfl, (Memory.bare_of_run h).1.trans ?_, (Memory.bare_of_run h).2⟩
          cases q <;> rfl
    | false =>
      refine ⟨m, f, rfl, ?_, id⟩
      have hr := (Request.IsPlain.exchange (r := .store q) hw
        (Surroundings.ofOutcome (q.work.run m).1)).commit
      exact (congrArg (fun rows => (m.addAll (rows.getD [])).bare) hr).symm
  | accounts c => exact ⟨m, f, rfl, rfl, id⟩
  | audit a => exact ⟨m, f, rfl, rfl, id⟩
  | publish t k j => exact ⟨m, f, rfl, rfl, id⟩
  | now => exact ⟨m, f, rfl, rfl, id⟩
  | freshId => exact ⟨m, f, rfl, rfl, id⟩

theorem move_memory {x : Pool ι α} (hx : x.IsInMemory) (mv : Move ι) :
    (x.move mv).IsInMemory ∧ (x.memory.Sound → (x.move mv).memory.Sound) ∧
      ∃ rows, (x.move mv).committed = x.committed ++ rows ∧
        (x.move mv).memory.bare = (x.memory.addAll rows).bare := by
  obtain ⟨f, hf⟩ := hx
  cases mv with
  | failNext =>
    have hs : (x.move .failNext).store = .ofMemory x.memory true := by
      simp only [move]
      rw [hf, Store.failNext_ofMemory]
    have hm : (x.move .failNext).memory = x.memory := by
      rw [memory, hs, Store.memory_ofMemory]
    refine ⟨⟨true, by rw [hs, hm]⟩, ?_, [], by simp [committed, commits, move], ?_⟩
    · rw [hm]
      exact id
    · rw [hm, Memory.addAll_nil]
  | turn i w =>
    obtain hx | ⟨r, k, hk, hx⟩ := x.turn_cases i w
    · rw [move, hx]
      exact ⟨⟨f, hf⟩, id, [], by simp, rfl⟩
    · rw [move, hx]
      obtain ⟨m', f', hm, hb, hs⟩ := answer_ofMemory w r x.memory f
      rw [← hf] at hm hb
      refine ⟨⟨f', ?_⟩, ?_, (Exchange.commit? ⟨r, (w.answer r x.store).1⟩).getD [], ?_, ?_⟩
      · simp [memory, hm]
      · simpa [memory, hm] using hs
      · cases h : Exchange.commit? ⟨r, (w.answer r x.store).1⟩ <;> simp [committed, commits, h]
      · simpa [memory, hm] using hb

/-- **What any moves do to a store in memory**: they add rows, told apart from claims on events. -/
theorem after_memory {x : Pool ι α} (hx : x.IsInMemory) (ms : List (Move ι)) :
    (x.after ms).IsInMemory ∧ (x.memory.Sound → (x.after ms).memory.Sound) ∧
      ∃ rows, (x.after ms).committed = x.committed ++ rows ∧
        (x.after ms).memory.bare = (x.memory.addAll rows).bare := by
  refine after_induction (P := fun y => y.IsInMemory ∧ (x.memory.Sound → y.memory.Sound) ∧
    ∃ rows, y.committed = x.committed ++ rows ∧ y.memory.bare = (x.memory.addAll rows).bare)
    ⟨hx, id, [], by simp, rfl⟩ ?_ ms
  rintro y mv ⟨hy, hs, rows, hc, hb⟩
  obtain ⟨hy', hs', rows', hc', hb'⟩ := move_memory hy mv
  refine ⟨hy', hs' ∘ hs, rows ++ rows', by rw [hc', hc, List.append_assoc], ?_⟩
  rw [hb', Memory.addAll_append]
  exact Memory.bare_addAll hb rows'

theorem mem_records_after {x : Pool ι α} (hx : x.IsInMemory) {r : IdempotencyRecord}
    (h : r ∈ x.memory.records) (ms : List (Move ι)) : r ∈ (x.after ms).memory.records := by
  obtain ⟨-, -, rows, -, hb⟩ := after_memory hx ms
  have hr := congrArg Memory.records hb
  simp only [Memory.bare, Memory.addAll_eq] at hr
  rw [hr]
  exact List.mem_append_left _ h

variable (m : Memory) (f : Bool) (p : ι → Program α) (ms : List (Move ι))

omit [DecidableEq ι] in
theorem isInMemory_onMemory : (onMemory m f p).IsInMemory := ⟨f, rfl⟩

theorem isInMemory_after : ((onMemory m f p).after ms).IsInMemory :=
  (after_memory (isInMemory_onMemory m f p) ms).1

variable {m} in
theorem sound_after (hm : m.Sound) : ((onMemory m f p).after ms).memory.Sound :=
  (after_memory (isInMemory_onMemory m f p) ms).2.1 hm

/-- **The store is what was committed.**  Told apart from the claims on events, the data are those
of the beginning with all committed rows added. -/
theorem bare_memory : ((onMemory m f p).after ms).memory.bare =
    (m.addAll ((onMemory m f p).after ms).committed).bare := by
  obtain ⟨-, -, rows, hc, hb⟩ := after_memory (isInMemory_onMemory m f p) ms
  have hrows : ((onMemory m f p).after ms).committed = rows := hc
  rw [hb, hrows]
  rfl

/-! ### Table by table -/

theorem memory_payments : ((onMemory m f p).after ms).memory.payments =
    m.payments ++ ((onMemory m f p).after ms).committed.filterMap Row.payment? := by
  have h := congrArg Memory.payments (bare_memory m f p ms)
  simpa [Memory.bare, Memory.addAll_eq] using h

theorem memory_steps : ((onMemory m f p).after ms).memory.steps =
    m.steps ++ ((onMemory m f p).after ms).committed.filterMap Row.step? := by
  have h := congrArg Memory.steps (bare_memory m f p ms)
  simpa [Memory.bare, Memory.addAll_eq] using h

theorem memory_journals : ((onMemory m f p).after ms).memory.journals =
    m.journals ++ ((onMemory m f p).after ms).committed.filterMap Row.journal? := by
  have h := congrArg Memory.journals (bare_memory m f p ms)
  simpa [Memory.bare, Memory.addAll_eq] using h

theorem memory_records : ((onMemory m f p).after ms).memory.records =
    m.records ++ ((onMemory m f p).after ms).committed.filterMap Row.record? := by
  have h := congrArg Memory.records (bare_memory m f p ms)
  simpa [Memory.bare, Memory.addAll_eq] using h

theorem memory_outbox : ((onMemory m f p).after ms).memory.outbox.map OutboxEvent.bare =
    (m.outbox ++ ((onMemory m f p).after ms).committed.filterMap Row.event?).map
      OutboxEvent.bare := by
  have h := congrArg Memory.outbox (bare_memory m f p ms)
  simpa [Memory.bare, Memory.addAll_eq] using h

end Pool

end DoubleEntry
