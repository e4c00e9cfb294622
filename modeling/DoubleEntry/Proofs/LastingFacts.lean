import DoubleEntry.Proofs.GrowingStores
import DoubleEntry.Proofs.WholeListings

/-!
# What was written lasts

Services and workers are carried out over a store of either layout, in any order and with any
failures.  What was committed stays as it was: rows are only added, and only the claims on events
and their publication change.  Whoever looks again sees the same: a payment is shown as before, with
its two steps in their order, and a journal that was listed is in every later listing that is read
to its end, although the store may change between two of its pages (`Ledger.remembers`).

## Main definitions

* `Ledger.Remembers`: what was written at one time lasts to another.
-/

namespace DoubleEntry

/-! ### Payments that are shown -/

section

variable {id : PaymentId} {journal : JournalId} {now now' : Instant}

theorem PaymentCommand.inFourDigits_steps (h : now.InFourDigits) :
    ∀ s ∈ steps id journal now, s.InFourDigits := by
  have hepoch : Instant.epoch.IsWhole := by constructor <;> decide
  have hdetails : ∀ s ∈ steps id journal .epoch, s.IsStored := isStored_steps hepoch
  refine List.forall_mem_cons.2 ⟨⟨?_, h⟩, List.forall_mem_singleton.2 ⟨?_, h⟩⟩
  · exact (hdetails _ List.mem_cons_self).details
  · exact (hdetails _ (List.mem_cons_of_mem _ List.mem_cons_self)).details

/-- In tables, a posted payment is read as it is from rows of the same texts. -/
theorem Layout.shown_rows (c : PaymentCommand) (hnow : now.microText = now'.microText)
    (h : now'.InFourDigits) :
    rows.shown (c.payment id journal now) (PaymentCommand.steps id journal now) =
      .ok ((c.payment id journal now').kept,
        (PaymentCommand.steps id journal now').map PaymentStep.kept) := by
  have hrow : PaymentRow.of (c.payment id journal now) = .of (c.payment id journal now') := by
    simp [PaymentRow.of, PaymentCommand.payment, Payment.holdId, hnow]
  have hsteps : (PaymentCommand.steps id journal now).map StepRow.of =
      (PaymentCommand.steps id journal now').map StepRow.of := by
    simp [PaymentCommand.steps, PaymentStep.succeeded, StepRow.of, hnow]
  have hread : ((PaymentCommand.steps id journal now').map StepRow.of).mapM StepRow.read =
      .ok ((PaymentCommand.steps id journal now').map PaymentStep.kept) :=
    Tables.mapM_map fun s hs => StepRow.read_kept (PaymentCommand.inFourDigits_steps h s hs)
  have hpayment : PaymentRow.read (.of (c.payment id journal now')) =
      .ok (c.payment id journal now').kept := PaymentRow.read_kept ⟨h, h⟩
  rw [shown, hrow, hsteps, hpayment, hread]
  rfl

end

namespace Ledger

variable {ι : Type} [DecidableEq ι] {k : Layout} {jobs : ι → Job} {L : List Posting}
  {x y : Ledger ι}

/-- What was written at one time lasts to another.  Readers see it if reads go to the data. -/
structure Remembers (x y : Ledger ι) : Prop where
  /-- Rows are only added; nothing else changes but the claims on events and their publication. -/
  grows : x.store.data.GrowsTo y.store.data
  /-- What was committed is stored. -/
  stored : ∀ rows ∈ x.commits, ∀ row ∈ rows, y.store.data.Stores row
  /-- A payment is shown as before, with its steps in their order. -/
  shown : x.store.readsData = true → ∀ p, x.store.data.Stores (.payment p) →
    ∃ r, x.store.Replies (.find p.id) (.shown r) ∧ y.store.Replies (.find p.id) (.shown r) ∧
      (x.store.data.Admits p.createdAt → ∃ v, r = .ok v ∧ v.paymentId = p.id ∧ v.status = .posted ∧
        v.steps.map (·.step) = [PaymentStep.reserveHold, PaymentStep.postLedger])
  /-- Every page that can be asked for is listed, and what is listed is in every later listing of
  the same account and span of time that is read to its end, as it can be. -/
  listed : x.store.readsData = true → ∀ account q l, Listing.ofQuery account q = .ok l →
    ∃ p, x.store.Replies (.journals account q) (.listed (.ok p)) ∧ (∃ views, Lists l 1 y views) ∧
      ∀ size views, Lists { l with size := size } 1 y views → p.entries ⊆ views

namespace Filled

theorem exists_lookup (h : Filled k jobs L x) {p : Payment}
    (hp : x.store.data.Stores (.payment p)) : ∃ (c : PaymentCommand) (journal : JournalId)
      (now : Instant), (∀ L' y, Filled k jobs (L ++ L') y → y.store.readsData = true →
        y.store.Replies (.find p.id) (.shown (PaymentView.ofLookup
          (k.shown (c.payment p.id journal now) (PaymentCommand.steps p.id journal now))))) ∧
      (x.store.data.Admits p.createdAt → k = .rows →
        p.createdAt.InFourDigits ∧ now.microText = p.createdAt.microText) := by
  obtain ⟨q, hq, hid, hadmits⟩ := h.store.exists_of_stores hp
  rw [(Posting.fill_content h.sound).payments] at hq
  obtain ⟨P, hP, hq⟩ := List.mem_flatMap.1 hq
  cases P with
  | topUp _ _ _ _ _ => cases hq
  | journal _ _ _ _ _ => cases hq
  | @payment c id journal lineIds entry event now r command booked =>
    obtain rfl : q = c.payment id entry.id now := List.mem_singleton.1 hq
    obtain rfl : id = p.id := hid
    refine ⟨c, entry.id, now, fun L' y hy hr => hy.store.replies_find hr ?_, hadmits⟩
    have hfill := Posting.fill_content hy.sound
    have hP' := List.mem_append_left L' hP
    refine k.run_payment (p := c.payment p.id entry.id now) ?_ (hfill.filter_steps hP') ?_
    · refine Memory.filter_eq_singleton hfill.sound.paymentIds ?_
      rw [hfill.payments]
      exact List.mem_flatMap.2 ⟨_, hP', List.mem_singleton_self _⟩
    · simp [PaymentCommand.steps, PaymentStep.succeeded]

theorem remembers_of_later (h : Filled k jobs L x) (hl : x.Later y) : x.Remembers y := by
  obtain ⟨L', h'⟩ := h.later hl
  have hcontent := h'.store
  rw [Posting.content_append] at hcontent
  refine ⟨h.store.growsTo hcontent, fun rows hrows row hrow => ?_, fun hr p hp => ?_,
    fun hr account q l asks => ?_⟩
  · refine h'.store.stores h'.sound (Memory.stores_addAll _ ?_)
    rw [List.flatMap_append]
    exact List.mem_append_left _ (h.commits rows hrows hrow)
  · obtain ⟨c, journal, now, hreplies, hadmits⟩ := h.exists_lookup hp
    refine ⟨_, hreplies [] x (by rwa [List.append_nil]) hr,
      hreplies L' y h' (hl.readsData.trans hr), fun hp => ?_⟩
    cases k with
    | values => exact ⟨_, rfl, rfl, rfl, rfl⟩
    | rows =>
      obtain ⟨hyear, htext⟩ := hadmits hp rfl
      rw [Layout.shown_rows c htext hyear]
      exact ⟨_, rfl, rfl, rfl, rfl⟩
  · have hr' := hl.readsData.trans hr
    obtain ⟨p, replies, -, -, hmem⟩ := h.exists_page hr asks
    refine ⟨p, replies, h'.exists_lists hr' asks 0, fun size views hlists v hv => ?_⟩
    obtain ⟨j, hj, hjv⟩ := (hmem v).1 hv
    obtain ⟨L'', hy, hsub⟩ := h.found_sublist hl
    have hfound := (hsub l).subset (Layout.mem_found_of_mem_page hj)
    refine hy.mem_of_lists (n := 0) hlists hr' ?_ hjv
    rw [Nat.zero_mul]
    exact hfound

end Filled

/-- **What was written lasts**, in a store of either kind that was opened with nothing in it,
whatever jobs are carried out over it, in any order and with any failures. -/
theorem remembers {address : String} {readAddress : Option String} {s : Store}
    (opened : Store.open? address readAddress = .ok s) (jobs : ι → Job)
    (first : (Pool.start s fun i => (jobs i).program).Later x) (later : x.Later y) :
    x.Remembers y := by
  obtain ⟨k, hs⟩ := Store.Keeps.exists_of_open? opened
  obtain ⟨L, hx⟩ := (Filled.start hs jobs).later first
  exact hx.remembers_of_later later

/-- The payment of the race that is written. -/
def racePayment : Payment where
  id := .ofNat 1
  idempotencyKey := "order-0001"
  source := .ofNat 1
  destination := .ofNat 2
  amount := (Decimal.ofText? "10.00").getD .zero
  currency := ⟨"USD", rfl, rfl⟩
  status := .posted
  customerId := none
  journalId := some (.ofNat 3)
  createdAt := .epoch
  updatedAt := .epoch

/-- The race over tables, which has not begun. -/
def raceOverTables : Ledger Bool :=
  Pool.start (.ofTables .empty) fun _ => (Job.post raceRequest).program

/-- The race over tables as soon as a payment is written. -/
def raceWritten : Ledger Bool := raceOverTables.after (raceMoves.take 14)

theorem open?_tables : Store.open? "sqlite:ledger.db" none = .ok (.ofTables .empty) := by
  have hmemory : "sqlite:ledger.db".startsWith "memory" = false := by decide +kernel
  have hpostgres : "sqlite:ledger.db".startsWith "postgres://" = false := by decide +kernel
  have hpostgres' : "sqlite:ledger.db".startsWith "postgresql://" = false := by decide +kernel
  have hsqlite : "sqlite:ledger.db".startsWith "sqlite:" = true := by decide +kernel
  simp [Store.open?, hmemory, hpostgres, hpostgres', hsqlite, Store.ofTables]

/-- The payment of the race that is written is shown from then on, whatever the other one does. -/
theorem remembers_race :
    Store.open? "sqlite:ledger.db" none = .ok (.ofTables .empty) ∧
      raceOverTables.Later raceWritten ∧
      raceWritten.Later (raceWritten.after (raceMoves.drop 14)) ∧
      Remembers raceWritten (raceWritten.after (raceMoves.drop 14)) ∧
      raceWritten.store.data.Stores (.payment racePayment) ∧
      ∃ v, (raceWritten.after (raceMoves.drop 14)).store.Replies (.find racePayment.id)
        (.shown (.ok v)) := by
  have hfirst : raceOverTables.Later raceWritten := Pool.later_after _ _
  have hlater := Pool.later_after raceWritten (raceMoves.drop 14)
  have hremembers := remembers open?_tables (fun _ => .post raceRequest) hfirst hlater
  have hstores : raceWritten.store.data.Stores (.payment racePayment) := by decide +kernel
  have hyear : racePayment.createdAt.InFourDigits := by decide +kernel
  obtain ⟨r, -, hreplies, hshown⟩ := hremembers.shown hfirst.readsData racePayment hstores
  obtain ⟨v, rfl, -⟩ := hshown (Database.admits_of_inFourDigits hyear _)
  exact ⟨open?_tables, hfirst, hlater, hremembers, hstores, v, hreplies⟩

end Ledger

end DoubleEntry
