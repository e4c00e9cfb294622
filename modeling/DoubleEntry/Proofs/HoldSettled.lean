import DoubleEntry.Proofs.Ledger
import Mathlib.Logic.Basic

/-!
# Every hold is settled once

A hold lives in the accounts service, outside of the units of work of the store.  Yet when a payment
has returned, a hold that it reserved is either that of a stored payment, and never released, or
released once, and never that of a stored payment.

The argument is one of ownership: a hold has the identifier that its payment drew, and what is drawn
by one job is released and stored by no other.

## Main definitions

* `Ledger.Fresh`: no identifier was drawn twice, or is that of an earlier payment.
* `Ledger.releasesOf`: the requests to release one hold, each with the job that made it.

## Main results

* `Ledger.hold_settled_once`: a hold is kept or released, for all runs.
-/

namespace DoubleEntry

/-! ### Identifiers of one job -/

theorem PaymentCommand.eq_of_mem_rows {c : PaymentCommand} {id : PaymentId} {entry : JournalEntry}
    {event : EventId} {now : Instant} {p : Payment} (h : .payment p ∈ c.rows id entry event now) :
    p = c.payment id entry.id now := by
  simpa [rows, steps] using h

namespace Payments

theorem Progress.drawn_of_release {c : PaymentCommand} {es : List Exchange}
    {q : Program (Except ServiceError PaymentPosted)} (hp : Progress c es q) {h : HoldRequest}
    (hh : h ∈ Log.releases es) : h.holdId ∈ Log.drawn es := by
  rcases hp with ⟨-, hr, -, -⟩ | ⟨hd, -, -, ⟨hr, -, -⟩ | ⟨_, -, hr, -, -⟩ | ⟨hr, -, -⟩⟩
  · simp [hr] at hh
  · simp [hr] at hh
  · simp [hr] at hh
  · rw [hr, List.mem_singleton] at hh
    rw [hh]
    exact hd

theorem Progress.drawn_of_payment {c : PaymentCommand} {es : List Exchange}
    {q : Program (Except ServiceError PaymentPosted)} (hp : Progress c es q) {rows : List Row}
    (hrows : rows ∈ Log.commits es) {p : Payment} (hrow : .payment p ∈ rows) :
    p.id ∈ Log.drawn es := by
  obtain ⟨id, _, _, _, _, _, hid, -, rfl⟩ := hp.of_commit hrows
  rw [PaymentCommand.eq_of_mem_rows hrow]
  exact hid

end Payments

namespace Job

theorem Progress.drawn_of_release {j : Job} {es : List Exchange} {q : Program Reply}
    (hp : Progress es j q) {h : HoldRequest} (hh : h ∈ Log.releases es) :
    h.holdId ∈ Log.drawn es := by
  cases hp with
  | payment _ progress => exact progress.drawn_of_release hh
  | topUp _ holdless _ => simp [holdless.released] at hh
  | journal _ holdless _ => simp [holdless.released] at hh
  | plain plain _ _ => simp [(Log.eq_nil_of_plain plain).2.1] at hh

theorem Progress.drawn_of_payment {j : Job} {es : List Exchange} {q : Program Reply}
    (hp : Progress es j q) {rows : List Row} (hrows : rows ∈ Log.commits es) {p : Payment}
    (hrow : .payment p ∈ rows) : p.id ∈ Log.drawn es := by
  cases hp with
  | payment _ progress => exact progress.drawn_of_payment hrows hrow
  -- only payments store payments
  | topUp _ _ progress =>
    obtain ⟨_, _, _, _, _, -, rfl⟩ := progress.of_commit hrows
    simp [CreditCommand.rows] at hrow
  | journal _ _ progress =>
    obtain ⟨_, _, _, _, _, _, -, rfl⟩ := progress.of_commit hrows
    simp [ManualCommand.rows] at hrow
  | plain plain _ _ => simp [(Log.eq_nil_of_plain plain).2.2] at hrows

/-- **What became of a hold** that was answered for: it was refused, or its payment was written, or
it was released, or its payment is on its way. -/
theorem Progress.hold_cases {j : Job} {es : List Exchange} {q : Program Reply}
    (hp : Progress es j q) {h : HoldRequest} {o : HoldOutcome} (hh : (h, o) ∈ Log.holds es) :
    ∃ r c id, j = .post r ∧ c.key = trim r.idempotencyKey ∧ id ∈ Log.drawn es ∧
      h = PaymentCommand.hold c id ∧
      ((o.ok = false ∧ Log.releases es = []) ∨
        (o.ok = true ∧ ((∃ entry event now, Log.commits es = [c.rows id entry event now] ∧
            Log.releases es = []) ∨
          (Log.commits es = [] ∧ Log.releases es = [c.unhold id]) ∨
          ∀ reply, q ≠ .done reply))) := by
  cases hp with
  | @payment r c q command progress =>
    have hkey := PaymentCommand.key_of_ofRequest command
    rcases progress with ⟨refused, hr, -, -⟩ | ⟨hid, hholds, hok, persisted⟩
    · obtain ⟨ho, id, hid, rfl⟩ := refused h o hh
      exact ⟨r, c, id, rfl, hkey, hid, rfl, .inl ⟨ho, hr⟩⟩
    · rw [hholds, List.mem_singleton] at hh
      cases hh
      refine ⟨r, c, _, rfl, hkey, hid, rfl, .inr ⟨hok, ?_⟩⟩
      rcases persisted with ⟨-, -, hn⟩ | ⟨event, -, hr, hc, -⟩ | ⟨hr, hc, -⟩
      · refine .inr (.inr fun reply hq => ?_)
        obtain ⟨b, hb, -⟩ := Program.map_eq_done hq
        exact hn b hb
      · exact .inl ⟨_, event, _, hc, hr⟩
      · exact .inr (.inl ⟨hc, hr⟩)
  | topUp _ holdless _ => simp [holdless.held] at hh
  | journal _ holdless _ => simp [holdless.held] at hh
  | plain plain _ _ => simp [(Log.eq_nil_of_plain plain).1] at hh

end Job

namespace Ledger

open Log

variable {ι : Type} [DecidableEq ι] {m : Memory} {f : Bool} {jobs : ι → Job} {ms : List (Move ι)}

/-- No identifier was drawn twice, and none is that of a payment that was there before. -/
structure Fresh (m : Memory) (x : Ledger ι) : Prop where
  nodup : ((x.gather Exchange.drawn?).map Prod.snd).Nodup
  new : ∀ p ∈ m.payments, p.id ∉ (x.gather Exchange.drawn?).map Prod.snd

/-- The requests to release a hold, each with the job that made it. -/
def releasesOf (id : PaymentId) (x : Ledger ι) : List (ι × HoldRequest) :=
  (x.gather Exchange.release?).filter fun r => r.2.holdId = id

/-! ### Ownership -/

theorem Fresh.eq {x : Ledger ι} (h : Fresh m x) {i j : ι} {u : Uuid} (hi : u ∈ drawn (x.log i))
    (hj : u ∈ drawn (x.log j)) : i = j := by
  have hij := List.inj_on_of_nodup_map h.nodup (Pool.mem_gather.2 hi) (Pool.mem_gather.2 hj) rfl
  exact congrArg Prod.fst hij

theorem Fresh.releasesOf_eq (hx : Fresh m ((start m f jobs).after ms)) {i : ι} {id : PaymentId}
    (hi : id ∈ drawn (((start m f jobs).after ms).log i)) :
    releasesOf id ((start m f jobs).after ms) =
      ((releases (((start m f jobs).after ms).log i)).filter fun h => h.holdId = id).map
        fun h => (i, h) := by
  refine Pool.filter_gather (P := fun h : HoldRequest => h.holdId = id) fun j h hm hid => ?_
  have hd := (progress m f jobs ms j).drawn_of_release (Pool.mem_gather.1 hm)
  rw [of_decide_eq_true hid] at hd
  exact hx.eq hd hi

theorem Fresh.exists_commit (hx : Fresh m ((start m f jobs).after ms)) {i : ι} {p : Payment}
    (hi : p.id ∈ drawn (((start m f jobs).after ms).log i))
    (hp : p ∈ ((start m f jobs).after ms).memory.payments) :
    ∃ rows ∈ commits (((start m f jobs).after ms).log i), .payment p ∈ rows := by
  rw [start, Pool.memory_payments, List.mem_append, List.mem_filterMap] at hp
  obtain hp | ⟨row, hrow, hpay⟩ := hp
  · exact absurd (List.mem_map.2 ⟨_, Pool.mem_gather.2 hi, rfl⟩) (hx.new p hp)
  · obtain ⟨j, rows, hrows, hmem⟩ := Pool.mem_committed.1 hrow
    obtain rfl : row = .payment p := by
      cases row <;> cases hpay
      rfl
    have hd := (progress m f jobs ms j).drawn_of_payment hrows hmem
    obtain rfl := hx.eq hd hi
    exact ⟨rows, hrows, hmem⟩

/-! ### Holds -/

/-- The hold is that of a stored payment, and is never released. -/
def Kept (m : Memory) (h : HoldRequest) (x : Ledger ι) : Prop :=
  (∃ p ∈ x.memory.payments, p.id = h.holdId ∧ p.source = h.account ∧ p.currency = h.currency ∧
    p.amount = h.amount) ∧
  ∀ ms, Fresh m (x.after ms) → releasesOf h.holdId (x.after ms) = []

/-- The hold is never that of a stored payment; one job releases it, once, under a key made of the
key of its request. -/
def Undone (m : Memory) (h : HoldRequest) (i : ι) (key : String) (x : Ledger ι) : Prop :=
  (∀ ms, Fresh m (x.after ms) → ∀ p ∈ (x.after ms).memory.payments, p.id ≠ h.holdId) ∧
  ∀ ms, Fresh m (x.after ms) → releasesOf h.holdId (x.after ms) =
    [(i, { h with
      idempotencyKey := key ++ ":release_hold", reason := some "payment-compensation" })]

section

variable {i : ι} {reply : Job.Reply} {id : PaymentId}
  (hd : ((start m f jobs).after ms).rest i = .done reply)
  (hid : id ∈ drawn (((start m f jobs).after ms).log i))

include hd

theorem log_append (ms' : List (Move ι)) :
    ((start m f jobs).after (ms ++ ms')).log i = ((start m f jobs).after ms).log i := by
  rw [Pool.after_append]
  exact Pool.log_after_of_done hd ms'

include hid

theorem releasesOf_after (ms' : List (Move ι))
    (hy : Fresh m (((start m f jobs).after ms).after ms')) :
    releasesOf id (((start m f jobs).after ms).after ms') =
      ((releases (((start m f jobs).after ms).log i)).filter fun h => h.holdId = id).map
        fun h => (i, h) := by
  rw [← Pool.after_append] at hy ⊢
  rw [hy.releasesOf_eq (by rwa [log_append hd]), log_append hd]

/-- Where the job that drew an identifier has committed nothing, no payment has it, ever. -/
theorem payment_id_ne (hc : commits (((start m f jobs).after ms).log i) = []) (ms' : List (Move ι))
    (hy : Fresh m (((start m f jobs).after ms).after ms')) :
    ∀ p ∈ (((start m f jobs).after ms).after ms').memory.payments, p.id ≠ id := by
  rintro p hp rfl
  rw [← Pool.after_append] at hy hp
  obtain ⟨rows, hrows, -⟩ := hy.exists_commit (by rwa [log_append hd]) hp
  rw [log_append hd, hc] at hrows
  cases hrows

theorem kept_of_commit {c : PaymentCommand} {entry : JournalEntry} {event : EventId} {now : Instant}
    (hc : commits (((start m f jobs).after ms).log i) = [c.rows id entry event now])
    (hr : releases (((start m f jobs).after ms).log i) = []) :
    Kept m (c.hold id) ((start m f jobs).after ms) := by
  have hrows : c.rows id entry event now ∈ commits (((start m f jobs).after ms).log i) := by
    rw [hc]
    exact List.mem_singleton_self _
  refine ⟨⟨_, Pool.mem_payments_of_commit m f _ ms hrows List.mem_cons_self, rfl, rfl, rfl, rfl⟩,
    fun ms' hy => ?_⟩
  have h := releasesOf_after hd hid ms' hy
  rw [hr] at h
  exact h

theorem undone_of_release {c : PaymentCommand}
    (hc : commits (((start m f jobs).after ms).log i) = [])
    (hr : releases (((start m f jobs).after ms).log i) = [c.unhold id]) :
    Undone m (c.hold id) i c.key ((start m f jobs).after ms) := by
  refine ⟨fun ms' hy => payment_id_ne hd hid hc ms' hy, fun ms' hy => ?_⟩
  have h := releasesOf_after hd hid ms' hy
  rw [hr] at h
  simpa [PaymentCommand.unhold, PaymentCommand.hold] using h

end

/-- **Every hold is settled once.**  Of a hold that was granted, when the job that asked for it has
returned, either the payment is stored and the hold is never released, or the payment is never
stored and the hold is released once by the job.  A hold that was refused is not released. -/
theorem hold_settled_once (hx : Fresh m ((start m f jobs).after ms)) {i : ι} {h : HoldRequest}
    {o : HoldOutcome} (hh : (h, o) ∈ holds (((start m f jobs).after ms).log i)) :
    ∃ r, jobs i = .post r ∧
      (o.ok = true → ∀ reply, ((start m f jobs).after ms).rest i = .done reply →
        Xor (Kept m h ((start m f jobs).after ms))
          (Undone m h i (trim r.idempotencyKey) ((start m f jobs).after ms))) ∧
      (o.ok = false → releasesOf h.holdId ((start m f jobs).after ms) = []) := by
  obtain ⟨r, c, id, hj, hkey, hid, rfl, hcases⟩ := (progress m f jobs ms i).hold_cases hh
  refine ⟨r, hj, fun hok reply hd => ?_, fun hno => ?_⟩
  · rw [← hkey]
    -- the hold was granted and the job has returned, so it was kept or released
    obtain ⟨hno, -⟩ | ⟨-, ⟨entry, event, now, hc, hr⟩ | ⟨hc, hr⟩ | hn⟩ := hcases
    · rw [hok] at hno
      cases hno
    · have kept := kept_of_commit hd hid hc hr
      obtain ⟨p, hp, hpid, -⟩ := kept.1
      exact .inl ⟨kept, fun undone => undone.1 [] hx p hp hpid⟩
    · have undone := undone_of_release hd hid hc hr
      refine .inr ⟨undone, fun kept => ?_⟩
      obtain ⟨p, hp, hpid, -⟩ := kept.1
      exact undone.1 [] hx p hp hpid
    · exact absurd hd (hn reply)
  · obtain ⟨-, hr⟩ | ⟨hok, -⟩ := hcases
    · have h := hx.releasesOf_eq hid
      rw [hr] at h
      exact h
    · rw [hno] at hok
      cases hok

theorem fresh_race : Fresh .empty race :=
  ⟨by decide +kernel, fun _ h => by cases h⟩

/-- The hold that the second payment of the race asks for. -/
def raceHold : HoldRequest where
  account := .ofNat 1
  currency := ⟨"USD", by decide, by decide⟩
  amount := ⟨false, 1000, 2, by decide, by decide⟩
  holdId := .ofNat 11
  idempotencyKey := "order-0001:reserve_hold"
  reason := some "payment"

/-- The hold of the second payment of the race is granted, and released once. -/
theorem hold_settled_in_race : Fresh Memory.empty race ∧
    holds (race.log false) = [(raceHold, ⟨true, "done", none⟩)] ∧
    race.rest false = .done (.posted (.ok (PaymentCommand.answer (.ofNat 1)))) ∧
    (releasesOf raceHold.holdId race).length = 1 ∧
    Xor (Kept .empty raceHold race)
      (Undone .empty raceHold false (trim raceRequest.idempotencyKey) race) := by
  have hh : holds (race.log false) = [(raceHold, ⟨true, "done", none⟩)] := by decide +kernel
  have hm : (raceHold, ⟨true, "done", none⟩) ∈
      holds (((start .empty false fun _ => .post raceRequest).after raceMoves).log false) :=
    hh ▸ List.mem_singleton_self _
  refine ⟨fresh_race, hh, rest_race false, by decide +kernel, ?_⟩
  obtain ⟨r, hr, granted, -⟩ := hold_settled_once (f := false) fresh_race hm
  cases hr
  exact granted rfl _ (rest_race false)

end Ledger

end DoubleEntry
