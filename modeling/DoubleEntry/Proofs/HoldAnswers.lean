import DoubleEntry.Proofs.HoldKeys

/-!
# The answer to the request for a hold

A payment asks for its hold once, and what becomes of the hold depends on what it is answered
(`Ledger.release_follows_answer`).  If the hold was granted, a payment that fails gives it back.  If
the accounts service did not answer in time, or the connection broke, the payment fails as well, and
at once; but then it does not give the hold back, which the accounts service may have placed
nevertheless (`Ledger.timeout_not_released`).

## Main definitions

* `Exchange.reserved?`, `Log.reserved`: the requests to reserve a hold, with what was answered.
* `Payments.Unanswered`: what a payment does whose request for the hold failed.
-/

namespace DoubleEntry

/-- The request to reserve a hold with what was answered, an error of the accounts service
included. -/
def Exchange.reserved? : Exchange → Option (HoldRequest × Except GatewayError HoldOutcome)
  | ⟨.accounts (.reserve h), some a⟩ => some (h, a)
  | _ => none

/-- What does not call the accounts service about a hold neither reserves nor releases one. -/
theorem Exchange.eq_none_of_holdCall? {e : Exchange} (h : e.holdCall? = none) :
    e.reserved? = none ∧ e.release? = none := by
  obtain ⟨r, a⟩ := e
  cases r with
  | accounts c => cases c <;> first | exact ⟨rfl, rfl⟩ | cases h
  | _ => exact ⟨rfl, rfl⟩

theorem Exchange.hold?_of_reserved? {e : Exchange} {h : HoldRequest} {o : HoldOutcome}
    (hreserved : e.reserved? = some (h, .ok o)) : e.hold? = some (h, o) := by
  obtain ⟨r, a⟩ := e
  cases r with
  | accounts c =>
    cases c with
    | reserve h' =>
      rcases a with _ | a <;> cases hreserved
      rfl
    | _ => cases hreserved
  | _ => cases hreserved

namespace Log

/-- The requests to reserve a hold, with what was answered. -/
def reserved (es : List Exchange) : List (HoldRequest × Except GatewayError HoldOutcome) :=
  es.filterMap Exchange.reserved?

theorem reserved_cons_of_none {e : Exchange} (h : e.reserved? = none) (es : List Exchange) :
    reserved (e :: es) = reserved es := by
  simp [reserved, h]

theorem reserved_eq_nil {es : List Exchange} {h : HoldRequest}
    (hsent : holdCalls es <+: [.release h]) : reserved es = [] := by
  refine List.filterMap_eq_nil_iff.2 fun e he => ?_
  cases hcall : e.holdCall? with
  | none => exact (Exchange.eq_none_of_holdCall? hcall).1
  | some call =>
    have hmem : call ∈ holdCalls es := List.mem_filterMap.2 ⟨e, he, hcall⟩
    obtain rfl := List.mem_singleton.1 (hsent.subset hmem)
    obtain ⟨r, a⟩ := e
    cases r with
    | accounts c => cases c <;> first | rfl | cases hcall
    | _ => rfl

/-- A request that was not answered with an error was answered for. -/
theorem mem_holds_of_reserved {es : List Exchange} {h : HoldRequest} {o : HoldOutcome}
    (hm : (h, .ok o) ∈ reserved es) : (h, o) ∈ holds es := by
  obtain ⟨e, he, hreserved⟩ := List.mem_filterMap.1 hm
  exact List.mem_filterMap.2 ⟨e, he, Exchange.hold?_of_reserved? hreserved⟩

end Log

namespace Payments

open Log Program

/-- If the request for the hold fails the payment has ended with the error, and releases nothing. -/
def Unanswered (es : List Exchange) (q : Program (Except ServiceError PaymentPosted)) : Prop :=
  ∀ h e, (h, .error e) ∈ reserved es → q = .done (.error e.toService) ∧ releases es = []

theorem lasting_unanswered : Lasting Unanswered where
  begins _ _ _ h := nomatch h
  keeps {e es _} he h := by
    obtain ⟨hreserved, hrelease⟩ := Exchange.eq_none_of_holdCall? he
    rw [Unanswered, reserved_cons_of_none hreserved, releases_cons_of_none hrelease]
    exact h

/-- **A request for the hold that fails** ends the payment. -/
theorem always_reserve_unanswered (c : PaymentCommand) : (reserve c).Always Unanswered := by
  refine lasting_unanswered.ask (fun _ => rfl) fun id => ?_
  refine Program.always_ask (lasting_unanswered.begins _) (fun _ _ h => nomatch h) fun held => ?_
  rcases held with e | o
  · refine Program.always_done fun h e' hm => ?_
    cases List.mem_singleton.1 hm
    exact ⟨rfl, rfl⟩
  -- from here on no hold is asked for
  · have later : (Program.served (fun held => if held.ok then .ask .now (persist c id)
        else .fail (.rejected ("reserve hold failed status=" ++ held.status))) (.ok o)).Always
          (Sends [.release (c.unhold id)]) := by
      have lasting :=
        lasting_sends (α := Except ServiceError PaymentPosted) [.release (c.unhold id)]
      simp only [Program.served]
      split_ifs
      · exact lasting.ask (fun _ => rfl) (always_persist_sends c id)
      · exact lasting.done _
    refine later.mono fun es q hsent h e hm => ?_
    obtain hm | hm := List.mem_cons.1 hm
    · cases hm
    · rw [← reserved, reserved_eq_nil hsent] at hm
      cases hm

theorem always_post_unanswered (r : PaymentRequest) : (post r).Always Unanswered := by
  unfold post
  split
  · exact lasting_unlessAnswered lasting_unanswered
      (lasting_whenValid lasting_unanswered (always_reserve_unanswered _))
  · exact lasting_unanswered.done _

theorem Progress.released_of_error {c : PaymentCommand} {es : List Exchange} {e : ServiceError}
    {h : HoldRequest} {o : HoldOutcome} (hp : Progress c es (.done (.error e)))
    (hh : (h, o) ∈ holds es) (hok : o.ok = true) :
    ∃ id, h = c.hold id ∧ releases es = [c.unhold id] := by
  rcases hp with ⟨refused, -, -, -⟩ | ⟨-, hholds, -, persisted⟩
  · obtain ⟨hno, -⟩ := refused h o hh
    rw [hok] at hno
    cases hno
  · rw [hholds] at hh
    cases List.mem_singleton.1 hh
    refine ⟨_, rfl, ?_⟩
    rcases persisted with ⟨-, -, unended⟩ | ⟨_, -, -, -, answers⟩ | ⟨released, -, -⟩
    · exact absurd rfl (unended _)
    · cases answers _ rfl
    · exact released

end Payments

namespace Ledger

open Log

variable {ι : Type} [DecidableEq ι]

/-- **A release follows the answer to the request for the hold.**  A payment whose request fails
ends with the error and releases nothing.  A payment that fails later, its hold being granted, has
released the hold once: for the account, the currency and the amount that it was reserved for. -/
theorem release_follows_answer (s : Store) {jobs : ι → Job} (ms : List (Move ι)) {i : ι}
    {r : PaymentRequest} (hi : jobs i = .post r) {h : HoldRequest}
    {a : Except GatewayError HoldOutcome} (ha : (h, a) ∈ reserved ((onStore s jobs ms).log i)) :
    (∀ e, a = .error e → (onStore s jobs ms).rest i = .done (.posted (.error e.toService)) ∧
      releases ((onStore s jobs ms).log i) = []) ∧
    ∀ o e, a = .ok o → o.ok = true → (onStore s jobs ms).rest i = .done (.posted (.error e)) →
      ∃ k, releases ((onStore s jobs ms).log i) = [k] ∧ k.account = h.account ∧
        k.currency = h.currency ∧ k.amount = h.amount ∧ k.holdId = h.holdId := by
  have htrace : (jobs i).program.Trace ((onStore s jobs ms).log i) ((onStore s jobs ms).rest i) :=
    Pool.trace_log s (fun i => (jobs i).program) ms i
  rw [hi] at htrace
  refine ⟨?_, ?_⟩
  · rintro e rfl
    obtain ⟨q, ht, hq⟩ := Program.exists_trace_of_trace_map htrace
    obtain ⟨rfl, hreleases⟩ := Payments.always_post_unanswered r ht h e ha
    exact ⟨hq, hreleases⟩
  · rintro o e rfl hok hend
    have hh := mem_holds_of_reserved ha
    generalize (onStore s jobs ms).log i = es at htrace hh
    have hprogress := Job.progress_of_trace htrace
    rw [hend] at hprogress
    generalize hq : Program.done (Job.Reply.posted (Except.error e)) = q at hprogress
    cases hprogress with
    | payment command progress =>
      obtain ⟨_, rfl, hfail⟩ := Program.map_eq_done hq.symm
      cases hfail
      obtain ⟨id, rfl, hreleases⟩ := progress.released_of_error hh hok
      exact ⟨_, hreleases, rfl, rfl, rfl, rfl⟩
    | plain plain _ _ =>
      rw [(eq_nil_of_plain plain).1] at hh
      cases hh

/-- Surroundings that grant everything, but in which the request for a hold is not answered in
time. -/
def slow : Surroundings :=
  let granting := Surroundings.granting .epoch (.ofNat 1)
  { granting with
    accounts
      | .reserve _ => some (.error (.timeout 1500000000))
      | c => granting.accounts c }

/-- The turns of a payment up to the answer to its request for the hold. -/
def slowMoves : List (Move Unit) := List.replicate 4 (.turn () slow)

/-- The payment whose request for a hold is not answered in time. -/
def slowPayment : Ledger Unit :=
  onStore (.ofMemory .empty false) (fun _ => .post raceRequest) slowMoves

/-- The hold that it asks for. -/
def slowHold : HoldRequest := { raceHold with holdId := .ofNat 1 }

theorem reserved_slowPayment :
    reserved (slowPayment.log ()) = [(slowHold, .error (.timeout 1500000000))] := by
  decide +kernel

/-- The payment fails with the error that it was answered. -/
theorem release_follows_timeout :
    (slowHold, .error (.timeout 1500000000)) ∈ reserved (slowPayment.log ()) ∧
    slowPayment.rest () =
      .done (.posted (.error (GatewayError.timeout 1500000000).toService)) := by
  have hmem : (slowHold, .error (.timeout 1500000000)) ∈ reserved (slowPayment.log ()) := by
    rw [reserved_slowPayment]
    exact List.mem_singleton_self _
  exact ⟨hmem, ((release_follows_answer (.ofMemory .empty false) slowMoves rfl hmem).1 _ rfl).1⟩

/-- **A hold that may have been placed** is not given back. -/
theorem timeout_not_released : ¬ ∀ h n, (h, .error (.timeout n)) ∈ reserved (slowPayment.log ()) →
    ∃ k ∈ releases (slowPayment.log ()), k.holdId = h.holdId := by
  intro hall
  have hnone : releases (slowPayment.log ()) = [] := by decide +kernel
  obtain ⟨k, hk, -⟩ :=
    hall slowHold 1500000000 (reserved_slowPayment ▸ List.mem_singleton_self _)
  rw [hnone] at hk
  cases hk

end Ledger

end DoubleEntry
