import DoubleEntry.Proofs.OutboxRows
import DoubleEntry.Proofs.PlainTrace

/-!
# Workers over one outbox

Iterations of any number of workers are carried out over one store in any order, together with units
of work that insert events (`Relay.start`).  What each has done is told by its exchanges.

## Main definitions

* `Relay.Task`: an iteration of a worker, or a unit of work that inserts rows.
* `Relay.Workers`, `Relay.start`: tasks in progress over one store.
* `Relay.Sequential`: the iterations of one worker follow one another.
-/

namespace DoubleEntry

namespace Relay

/-- What is carried out over the outbox. -/
inductive Task where
  | iterate (c : RelayConfig)
  /-- Rows are inserted; nobody has claimed their events yet. -/
  | insert (rows : List Row) (pending : ∀ e, .event e ∈ rows → e.bare = e)

namespace Task

/-- How a task is carried out. -/
def program : Task → Program (Option RunOutcome)
  | iterate c => (runOnce c).map some
  | insert rows _ => .ask (.store (.post rows)) fun _ => .done none

/-- The worker whose iteration it is. -/
def worker? : Task → Option String
  | iterate c => some c.workerId
  | insert _ _ => none

end Task

/-- Tasks in progress over one store. -/
abbrev Workers (ι : Type) := Pool ι (Option RunOutcome)

variable {ι : Type} [DecidableEq ι]

/-- Tasks that have not begun, over an empty store in memory. -/
def start (failsNext : Bool) (tasks : ι → Task) : Workers ι :=
  Pool.onMemory .empty failsNext fun i => (tasks i).program

/-- The iterations of one worker follow one another: between two requests of one, there is none of
another. -/
def Sequential (tasks : ι → Task) (x : Workers ι) : Prop :=
  ∀ i j w, (tasks i).worker? = some w → (tasks j).worker? = some w →
    [i, j, i].Sublist (x.history.map Event.call) → i = j

variable (f : Bool) (tasks : ι → Task) (ms : List (Move ι))

theorem progress_iterate {i : ι} {c : RelayConfig} (hi : tasks i = .iterate c) :
    Progress c (((start f tasks).after ms).log i) ∧
      ∀ e ∈ ((start f tasks).after ms).log i, e.IsPlain := by
  have ht := Pool.trace_log (.ofMemory .empty f) (fun i => (tasks i).program) ms i
  rw [hi] at ht
  obtain ⟨q, ht, -⟩ := Program.exists_trace_of_trace_map ht
  exact ⟨always_runOnce c ht, isPlain_runOnce c ht⟩

theorem exchange_of_insert {i : ι} {rows : List Row} {pending : ∀ e, .event e ∈ rows → e.bare = e}
    (hi : tasks i = .insert rows pending) :
    ∀ e ∈ ((start f tasks).after ms).log i, ∃ a, e = ⟨.store (.post rows), a⟩ := by
  have ht := Pool.trace_log (.ofMemory .empty f) (fun i => (tasks i).program) ms i
  rw [hi] at ht
  have all : (Task.insert rows pending).program.Always fun es _ =>
      ∀ e ∈ es, ∃ a, e = ⟨.store (.post rows), a⟩ :=
    Program.always_ask (List.forall_mem_nil _) (List.forall_mem_singleton.2 ⟨none, rfl⟩)
      fun a => Program.always_done (List.forall_mem_singleton.2 ⟨some a, rfl⟩)
  exact all ht

/-- **A claim** is one of an iteration, made with an instant that it was shown. -/
theorem claim_of_mem {i : ι} {limit : Nat} {owner : String} {now : Instant} {ttl : Int}
    {a : Option (Request.store (.claim limit owner now ttl)).Answer}
    (h : ⟨.store (.claim limit owner now ttl), a⟩ ∈ ((start f tasks).after ms).log i) :
    ∃ c, tasks i = .iterate c ∧ owner = c.workerId ∧ ttl = Relay.ttl c ∧
      ⟨.now, some now⟩ ∈ ((start f tasks).after ms).log i := by
  cases hi : tasks i with
  | iterate c => exact ⟨c, rfl, (progress_iterate f tasks ms hi).1.claims h⟩
  | insert rows _ =>
    obtain ⟨a, ha⟩ := exchange_of_insert f tasks ms hi _ h
    cases ha

/-- **A settlement** is one of an iteration, and marks what the iteration has sent. -/
theorem settle_of_mem {i : ι} {published : List EventId} {now : Instant} {rest : List EventId}
    {owner : String} {a : Option (Request.store (.settle published now rest owner)).Answer}
    (h : ⟨.store (.settle published now rest owner), a⟩ ∈ ((start f tasks).after ms).log i) :
    ∃ c, tasks i = .iterate c ∧ owner = c.workerId ∧
      published = (Log.sent (((start f tasks).after ms).log i)).map (·.id) ∧
      rest = (Log.unsent (((start f tasks).after ms).log i)).map (·.id) := by
  cases hi : tasks i with
  | iterate c => exact ⟨c, rfl, (progress_iterate f tasks ms hi).1.settles h⟩
  | insert rows _ =>
    obtain ⟨a, ha⟩ := exchange_of_insert f tasks ms hi _ h
    cases ha

theorem bare_of_commit {i : ι} {ex : Exchange} (h : ex ∈ ((start f tasks).after ms).log i)
    {e : OutboxEvent} (he : e ∈ (ex.commit?.getD []).filterMap Row.event?) : e.bare = e := by
  cases hi : tasks i with
  -- an iteration inserts nothing
  | iterate c =>
    rw [((progress_iterate f tasks ms hi).2 ex h).commit] at he
    cases he
  | insert rows pending =>
    obtain ⟨a, rfl⟩ := exchange_of_insert f tasks ms hi _ h
    have hrows : e ∈ rows.filterMap Row.event? := by
      rcases a with _ | (_ | _)
      · cases he
      · cases he
      · exact he
    obtain ⟨row, hrow, hev⟩ := List.mem_filterMap.1 hrows
    obtain rfl : row = .event e := by
      cases row <;> cases hev
      rfl
    exact pending e hrow

theorem messages_eq (i : ι) : Log.messages (((start f tasks).after ms).log i) =
    (Log.sent (((start f tasks).after ms).log i)).map OutboxEvent.message := by
  cases hi : tasks i with
  | iterate c => exact (progress_iterate f tasks ms hi).1.messages
  | insert rows _ =>
    have hnil : Log.messages (((start f tasks).after ms).log i) = [] := by
      refine List.filterMap_eq_nil_iff.2 fun e he => ?_
      obtain ⟨a, rfl⟩ := exchange_of_insert f tasks ms hi e he
      rfl
    rw [Log.sent, hnil]
    rfl

theorem length_claims_le (i : ι) :
    ((((start f tasks).after ms).log i).filterMap Exchange.claim?).length ≤ 1 := by
  cases hi : tasks i with
  | iterate c => exact (progress_iterate f tasks ms hi).1.once
  | insert rows _ =>
    have hnil : (((start f tasks).after ms).log i).filterMap Exchange.claim? = [] := by
      refine List.filterMap_eq_nil_iff.2 fun e he => ?_
      obtain ⟨a, rfl⟩ := exchange_of_insert f tasks ms hi e he
      rfl
    rw [hnil]
    exact Nat.zero_le 1

end Relay

end DoubleEntry
