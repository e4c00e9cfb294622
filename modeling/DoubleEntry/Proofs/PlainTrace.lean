import DoubleEntry.Proofs.Effects
import DoubleEntry.Relay.Worker
import DoubleEntry.Service.Listings
import DoubleEntry.Service.Payments

/-!
# Programs of plain exchanges

Whoever reads or publishes neither writes rows nor asks for holds: all of its exchanges are plain.

## Main definitions

* `Program.IsPlain`: the program makes plain exchanges only.

## Main results

* `Payments.isPlain_find`, `Listings.isPlain_journals`, `Listings.isPlain_statement`: the services
  that read.
* `Relay.isPlain_runOnce`: an iteration of a worker.
-/

namespace DoubleEntry

/-- The program makes plain exchanges only. -/
def Program.IsPlain {α : Type} (p : Program α) : Prop := p.Always fun es _ => ∀ e ∈ es, e.IsPlain

/-! ### Programs of plain exchanges -/

namespace Program

variable {α : Type}

theorem tolerant_plain : Tolerant fun es (_ : Program α) => ∀ e ∈ es, e.IsPlain where
  unended _ := List.forall_mem_nil _
  plain he h := List.forall_mem_cons.2 ⟨he, h⟩

theorem isPlain_done (a : α) : (Program.done a).IsPlain := always_done (List.forall_mem_nil _)

theorem isPlain_crash : (Program.crash : Program α).IsPlain := always_crash (List.forall_mem_nil _)

theorem isPlain_ask {r : Request} {k : r.Answer → Program α} (hr : r.IsPlain)
    (h : ∀ a, (k a).IsPlain) : (Program.ask r k).IsPlain :=
  tolerant_plain.ask hr h

theorem isPlain_ask' {r : Request} {k : r.Answer → Program α}
    (hr : ∀ a : Option r.Answer, (Exchange.mk r a).IsPlain) (h : ∀ a, (k a).IsPlain) :
    (Program.ask r k).IsPlain :=
  always_ask (List.forall_mem_nil _) (List.forall_mem_singleton.2 (hr none)) fun a =>
    (h a).mono fun _ _ he => List.forall_mem_cons.2 ⟨hr (some a), he⟩

theorem isPlain_stored {β : Type} {q : StoreRequest} (hq : q.writes = false)
    {k : q.Value → Program (Except ServiceError β)} (h : ∀ a, (k a).IsPlain) :
    (Program.ask (.store q) (stored k)).IsPlain := by
  refine isPlain_ask hq fun a => ?_
  rcases a with e | a
  · exact isPlain_done _
  · exact h a

end Program

namespace Payments

theorem isPlain_find (id : PaymentId) : (find id).IsPlain := by
  refine Program.isPlain_stored rfl fun found => ?_
  rcases found with _ | ⟨p, steps⟩
  · exact Program.isPlain_done _
  · exact Program.isPlain_done _

end Payments

namespace Listings

theorem isPlain_journals (account : String) (q : ActivityQuery) : (journals account q).IsPlain := by
  unfold journals
  split
  · exact Program.isPlain_done _
  · exact Program.isPlain_stored rfl fun entries => Program.isPlain_done _

theorem isPlain_finish (c : StatementCommand) (items : List StatementItem) :
    (finish c items).IsPlain :=
  Program.isPlain_ask trivial fun _ => Program.isPlain_ask trivial fun _ => Program.isPlain_done _

theorem isPlain_enrich {α : Type} (items : List StatementItem) {k : List StatementItem → Program α}
    (h : ∀ items, (k items).IsPlain) : (enrich items k).IsPlain := by
  unfold enrich
  split
  · exact h items
  · refine Program.isPlain_ask trivial fun found => ?_
    rcases found with e | summaries
    · exact h _
    · exact h _

theorem isPlain_statement (account : String) (q : StatementQuery) :
    (statement account q).IsPlain := by
  unfold statement
  split
  · exact Program.isPlain_done _
  · rename_i c hc
    refine Program.isPlain_stored rfl fun entries => ?_
    split
    -- a sum has overflowed
    · exact Program.isPlain_crash
    · dsimp only
      split_ifs
      · exact isPlain_enrich _ (isPlain_finish c)
      · exact isPlain_finish c _

end Listings

namespace Relay

theorem isPlain_settle (c : RelayConfig) (claimed : List OutboxEvent) (count : Nat)
    (now : Instant) : (settle c claimed count now).IsPlain := by
  refine Program.isPlain_ask' (fun _ => ⟨rfl, rfl, rfl⟩) fun settled => ?_
  rcases settled with e | u
  · exact Program.isPlain_done _
  · exact Program.isPlain_done _

theorem isPlain_finish (c : RelayConfig) (claimed : List OutboxEvent) (count : Nat) :
    (finish c claimed count).IsPlain := by
  unfold finish
  split_ifs
  · exact isPlain_settle c claimed count _
  · exact Program.isPlain_ask trivial (isPlain_settle c claimed count)

theorem isPlain_publishAll (c : RelayConfig) (claimed : List OutboxEvent) (count : Nat)
    (es : List OutboxEvent) : (publishAll c claimed count es).IsPlain := by
  induction es generalizing count with
  | nil => exact isPlain_finish c claimed count
  | cons e es ih =>
    refine Program.isPlain_ask trivial fun sent => ?_
    rcases sent with _ | _
    · exact isPlain_finish c claimed count
    · exact ih (count + 1)

/-- **An iteration of a worker** makes plain exchanges only. -/
theorem isPlain_runOnce (c : RelayConfig) : (runOnce c).IsPlain := by
  refine Program.isPlain_ask trivial fun now =>
    Program.isPlain_ask' (fun _ => ⟨rfl, rfl, rfl⟩) fun claimed => ?_
  rcases claimed with e | (_ | ⟨e, es⟩)
  · exact Program.isPlain_done _
  · exact Program.isPlain_done _
  · exact isPlain_publishAll c _ 0 _

end Relay

end DoubleEntry
