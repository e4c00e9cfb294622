import DoubleEntry.Proofs.Committed
import DoubleEntry.Proofs.Job

/-!
# Jobs over one store

Jobs that have not begun are put over a store in memory, and then carried out in any order
(`Ledger.start`).  What each has done is one of its `Job.Progress`, and what it has found or
committed is in the store from then on.

## Main definitions

* `Ledger`, `Ledger.start`: jobs in progress over one store.
* `Ledger.race`: two payments with one key that both go on before either is written.

## Main results

* `Ledger.progress`: what a job has done.
* `Pool.mem_records_of_found`, `Pool.mem_records_of_commit`: records that were seen are stored.
-/

namespace DoubleEntry

/-- Jobs in progress over one store. -/
abbrev Ledger (ι : Type) := Pool ι Job.Reply

/-- The record that was found under a key. -/
def Exchange.found? : Exchange → Option (String × IdempotencyRecord)
  | ⟨.store (.record key), some (.ok (some r))⟩ => some (key, r)
  | _ => none

namespace Pool

variable {ι α : Type} [DecidableEq ι]

theorem mem_filterMap_history {β : Type} {x : Pool ι α} {g : Exchange → Option β} {b : β} :
    b ∈ (x.history.filterMap fun e => g e.exchange) ↔ ∃ i, b ∈ (x.log i).filterMap g := by
  simp only [List.mem_filterMap, mem_log]
  constructor
  · rintro ⟨⟨i, e⟩, he, hb⟩
    exact ⟨i, e, he, hb⟩
  · rintro ⟨i, e, he, hb⟩
    exact ⟨⟨i, e⟩, he, hb⟩

theorem mem_commits {x : Pool ι α} {rows : List Row} :
    rows ∈ x.commits ↔ ∃ i, rows ∈ Log.commits (x.log i) :=
  mem_filterMap_history

theorem mem_committed {x : Pool ι α} {row : Row} :
    row ∈ x.committed ↔ ∃ i, ∃ rows ∈ Log.commits (x.log i), row ∈ rows := by
  simp only [committed, List.mem_flatten, mem_commits]
  constructor
  · rintro ⟨rows, ⟨i, hi⟩, hr⟩
    exact ⟨i, rows, hi, hr⟩
  · rintro ⟨i, rows, hi, hr⟩
    exact ⟨rows, ⟨i, hi⟩, hr⟩

/-- A record that is found under a key is one of the store, and has the key. -/
theorem found_of_answer {w : Surroundings} {r : Request} {m : Memory} {f : Bool} {key : String}
    {rec : IdempotencyRecord}
    (h : Exchange.found? ⟨r, (w.answer r (.ofMemory m f)).1⟩ = some (key, rec)) :
    rec ∈ m.records ∧ rec.key = key := by
  rcases r with q | _ | _ | _ | _ | _
  · cases q with
    | record k =>
      have ha : (w.answer (.store (.record k)) (.ofMemory m f)).1 =
        some (.ok (m.records.find? fun r => r.key = k)) := rfl
      rw [ha] at h
      cases hf : m.records.find? fun r => r.key = k with
      | none => rw [hf] at h; cases h
      | some rec' =>
        rw [hf] at h
        cases h
        exact ⟨List.mem_of_find?_eq_some hf, by simpa using List.find?_some hf⟩
    | _ => cases h
  all_goals cases h

/-- Found records are in the store. -/
def Finds (x : Pool ι α) : Prop :=
  ∀ key rec, (key, rec) ∈ (x.history.filterMap fun e => e.exchange.found?) →
    rec ∈ x.memory.records ∧ rec.key = key

theorem finds_move {x : Pool ι α} (hx : x.IsInMemory) (h : x.Finds) (mv : Move ι) :
    (x.move mv).Finds := by
  have grow : ∀ rec ∈ x.memory.records, rec ∈ (x.move mv).memory.records :=
    fun rec hm => mem_records_after hx hm [mv]
  have old : ∀ key rec, (key, rec) ∈ (x.history.filterMap fun e => e.exchange.found?) →
      rec ∈ (x.move mv).memory.records ∧ rec.key = key :=
    fun key rec hm => ⟨grow rec (h key rec hm).1, (h key rec hm).2⟩
  cases mv with
  | failNext => exact old
  | turn i w =>
    obtain hm | ⟨r, k, hk, hm⟩ := x.turn_cases i w
    · rw [move, hm]
      exact h
    · intro key rec hmem
      have hh : (x.move (.turn i w)).history = x.history ++ [⟨i, r, (w.answer r x.store).1⟩] := by
        rw [move, hm]
      rw [hh, List.filterMap_append, List.mem_append] at hmem
      obtain hmem | hmem := hmem
      · exact old key rec hmem
      -- a record that is found now was there before the move, and records stay
      · obtain ⟨f, hf⟩ := hx
        rw [hf] at hmem
        have hfound : rec ∈ x.memory.records ∧ rec.key = key :=
          found_of_answer (w := w) (r := r) (f := f) (by simpa using hmem)
        exact ⟨grow rec hfound.1, hfound.2⟩

variable (m : Memory) (f : Bool) (p : ι → Program α) (ms : List (Move ι))

theorem finds_after : ((onMemory m f p).after ms).Finds := by
  have start : (onMemory m f p).IsInMemory ∧ (onMemory m f p).Finds :=
    ⟨isInMemory_onMemory m f p, fun _ _ h => by cases h⟩
  refine (after_induction (P := fun x => x.IsInMemory ∧ x.Finds) start ?_ ms).2
  exact fun x mv h => ⟨(move_memory h.1 mv).1, finds_move h.1 h.2 mv⟩

theorem mem_records_of_found {i : ι} {key : String} {rec : IdempotencyRecord}
    (h : ⟨.store (.record key), some (.ok (some rec))⟩ ∈ ((onMemory m f p).after ms).log i) :
    rec ∈ ((onMemory m f p).after ms).memory.records ∧ rec.key = key :=
  finds_after m f p ms key rec (mem_filterMap_history.2 ⟨i, List.mem_filterMap.2 ⟨_, h, rfl⟩⟩)

theorem mem_records_of_commit {i : ι} {rows : List Row} {rec : IdempotencyRecord}
    (h : rows ∈ Log.commits (((onMemory m f p).after ms).log i)) (hr : .record rec ∈ rows) :
    rec ∈ ((onMemory m f p).after ms).memory.records := by
  rw [memory_records, List.mem_append]
  exact .inr (List.mem_filterMap.2 ⟨_, mem_committed.2 ⟨i, rows, h, hr⟩, rfl⟩)

theorem mem_payments_of_commit {i : ι} {rows : List Row} {p' : Payment}
    (h : rows ∈ Log.commits (((onMemory m f p).after ms).log i)) (hr : .payment p' ∈ rows) :
    p' ∈ ((onMemory m f p).after ms).memory.payments := by
  rw [memory_payments, List.mem_append]
  exact .inr (List.mem_filterMap.2 ⟨_, mem_committed.2 ⟨i, rows, h, hr⟩, rfl⟩)

end Pool

namespace Ledger

variable {ι : Type} [DecidableEq ι]

/-- Jobs that have not begun, over a store in memory. -/
def start (m : Memory) (failsNext : Bool) (jobs : ι → Job) : Ledger ι :=
  Pool.onMemory m failsNext fun i => (jobs i).program

/-- **What a job has done** is one of its `Job.Progress`. -/
theorem progress (m : Memory) (f : Bool) (jobs : ι → Job) (ms : List (Move ι)) (i : ι) :
    Job.Progress (((start m f jobs).after ms).log i) (jobs i)
      (((start m f jobs).after ms).rest i) :=
  Job.progress_of_trace
    (Pool.trace_log (.ofMemory m f) (fun i => (jobs i).program) ms i)

/-- The answer to a payment, once it is given. -/
def postedTo (i : ι) (x : Ledger ι) : Option PaymentPosted :=
  match x.rest i with
  | .done (.posted (.ok a)) => some a
  | _ => none

omit [DecidableEq ι] in
theorem rest_of_postedTo {i : ι} {x : Ledger ι} {a : PaymentPosted} (h : postedTo i x = some a) :
    x.rest i = .done (.posted (.ok a)) := by
  unfold postedTo at h
  split at h
  · rename_i b hb
    rw [hb, Option.some.inj h]
  · cases h

/-! ### A race -/

/-- Turns of one job among surroundings that grant everything. -/
def turns {ι : Type} (i : ι) (ids : List Nat) : List (Move ι) :=
  ids.map fun id => .turn i (.granting .epoch (.ofNat id))

/-- The request of both payments of the race. -/
def raceRequest : PaymentRequest where
  idempotencyKey := "order-0001"
  source := (Uuid.ofNat 1).toText
  destination := (Uuid.ofNat 2).toText
  currency := "USD"
  amount := "10.00"
  initiatedBy := "ops"
  customerId := none

/-- The order of the race: both payments find that there is no answer yet. -/
def raceMoves : List (Move Bool) :=
  turns true [0, 0, 1, 0] ++ turns false [0, 0, 11] ++ turns true [0, 3, 4, 5, 6, 0, 0] ++
    turns false [0, 0, 13, 14, 15, 16, 0, 0, 0, 0, 0]

/-- Two payments with one key reserve their holds; the first is written, then the second cannot be,
and gives the answer of the first. -/
def race : Ledger Bool := (start .empty false fun _ => .post raceRequest).after raceMoves

theorem rest_race (b : Bool) :
    race.rest b = .done (.posted (.ok (PaymentCommand.answer (.ofNat 1)))) := by
  have h : ∀ b, postedTo b race = some (PaymentCommand.answer (.ofNat 1)) := by decide +kernel
  exact rest_of_postedTo (h b)

end Ledger

end DoubleEntry
