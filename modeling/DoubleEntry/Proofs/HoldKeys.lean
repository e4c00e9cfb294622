import DoubleEntry.Proofs.HoldSettled

/-!
# The keys of hold requests

A payment asks the accounts service for its hold under a key made of the key of its request, and
gives the hold back under another one.  A call of the service sends each of the two at most once
(`Payments.always_post_holdCalls`), so what it sends under one key is one request.  The key does not
tell calls apart: a request that is made again after its hold was released asks for a new hold under
the old key (`Ledger.hold_key_used_again`).  What two hold requests with one key have in common is
`Ledger.SharedKey`.

## Main definitions

* `Log.holdCalls`: the calls about holds that were sent, whatever became of them.
* `Program.Lasting`: a statement about traces that is only touched by calls about holds.
* `Ledger.SharedKey`: what two hold requests with one key have in common.

## Main results

* `Ledger.sharedKey_of_key`: hold requests with one key, for all runs over any store.
-/

namespace DoubleEntry

/-! ### Calls about holds -/

/-- The call of an exchange that is about a hold, whatever became of it. -/
def Exchange.holdCall? : Exchange → Option AccountsCall
  | ⟨.accounts (.reserve h), _⟩ => some (.reserve h)
  | ⟨.accounts (.release h), _⟩ => some (.release h)
  | _ => none

/-- The calls about holds that were sent, whatever became of them. -/
def Log.holdCalls (es : List Exchange) : List AccountsCall := es.filterMap Exchange.holdCall?

theorem Log.holdCalls_cons_of_none {e : Exchange} (h : e.holdCall? = none) (es : List Exchange) :
    holdCalls (e :: es) = holdCalls es := by
  simp [holdCalls, h]

/-- Two calls that both ask for a hold or both give one back, with their requests. -/
inductive AccountsCall.Alike : AccountsCall → AccountsCall → HoldRequest → HoldRequest → Prop
  | reserve (g h : HoldRequest) : Alike (.reserve g) (.reserve h) g h
  | release (g h : HoldRequest) : Alike (.release g) (.release h) g h

/-! ### Following a program -/

namespace Program

variable {α : Type} {P : List Exchange → Program α → Prop}

/-- A statement about traces that holds at first, and that is only touched by calls about holds. -/
structure Lasting (P : List Exchange → Program α → Prop) : Prop where
  begins : ∀ q : Program α, P [] q
  keeps : ∀ {e : Exchange} {es : List Exchange} {q : Program α}, e.holdCall? = none → P es q →
    P (e :: es) q

/-- What was sent about holds is the beginning of this. -/
abbrev Sends (calls : List AccountsCall) (es : List Exchange) (_ : Program α) : Prop :=
  Log.holdCalls es <+: calls

theorem lasting_sends (calls : List AccountsCall) : Lasting (Sends (α := α) calls) where
  begins _ := List.nil_prefix
  keeps he h := by
    rw [Sends, Log.holdCalls_cons_of_none he]
    exact h

theorem Lasting.done (hP : Lasting P) (a : α) : (Program.done a).Always P :=
  always_done (hP.begins _)

theorem Lasting.crash (hP : Lasting P) : (Program.crash : Program α).Always P :=
  always_crash (hP.begins _)

theorem Lasting.ask (hP : Lasting P) {r : Request} {k : r.Answer → Program α}
    (hr : ∀ a, (Exchange.mk r a).holdCall? = none) (h : ∀ a, (k a).Always P) :
    (Program.ask r k).Always P :=
  always_ask (hP.begins _) (hP.keeps (hr none) (hP.begins _)) fun a =>
    (h a).mono fun _ _ => hP.keeps (hr (some a))

theorem always_sends_ask {r : Request} {k : r.Answer → Program α} {call : AccountsCall}
    {calls : List AccountsCall} (hr : ∀ a, (Exchange.mk r a).holdCall? = some call)
    (h : ∀ a, (k a).Always (Sends calls)) : (Program.ask r k).Always (Sends (call :: calls)) := by
  refine always_ask List.nil_prefix ?_ fun a => (h a).mono fun es _ hes => ?_
  · simp [Sends, Log.holdCalls, hr]
  · have hcons : Log.holdCalls (⟨r, some a⟩ :: es) = call :: Log.holdCalls es := by
      simp [Log.holdCalls, hr]
    rw [Sends, hcons]
    exact List.cons_prefix_cons.2 ⟨rfl, hes⟩

end Program

/-! ### What a payment sends -/

namespace Payments

open Log Program

variable {α : Type} {P : List Exchange → Program (Except ServiceError α) → Prop}

theorem lasting_unlessAnswered (hP : Lasting P) {key operation : String} {dec : Decoder α}
    {k : Program (Except ServiceError α)} (hk : k.Always P) :
    (unlessAnswered key operation dec k).Always P := by
  refine hP.ask (fun _ => rfl) fun found => ?_
  rcases replayed operation dec found with e | (_ | a)
  · exact hP.done _
  · exact hk
  · exact hP.done _

theorem lasting_whenValid (hP : Lasting P) {source destination : AccountId} {currency : Currency}
    {amount : Decimal} {k : Program (Except ServiceError α)} (hk : k.Always P) :
    (whenValid source destination currency amount k).Always P := by
  refine hP.ask (fun _ => rfl) fun v => ?_
  rcases v with e | v
  · exact hP.done _
  · simp only [Program.served]
    split_ifs
    · exact hk
    · exact hP.done _

theorem always_compensate_sends (c : PaymentCommand) (id : PaymentId) (e : StoreError) :
    (compensate c id e).Always (Sends [.release (c.unhold id)]) := by
  have lasting := lasting_sends (α := Except ServiceError PaymentPosted) []
  refine always_sends_ask (fun _ => rfl) fun released => ?_
  refine lasting.ask (fun _ => rfl) fun at_ => lasting.ask (fun _ => rfl) fun _ => ?_
  cases e with
  | conflict _ => exact lasting_unlessAnswered lasting (lasting.done _)
  | _ => exact lasting.done _

theorem always_persist_sends (c : PaymentCommand) (id : PaymentId) (now : Instant) :
    (persist c id now).Always (Sends [.release (c.unhold id)]) := by
  have lasting := lasting_sends (α := Except ServiceError PaymentPosted) [.release (c.unhold id)]
  refine lasting.ask (fun _ => rfl) fun journal => lasting.ask (fun _ => rfl) fun debitLine =>
    lasting.ask (fun _ => rfl) fun creditLine => Program.always_ofHalt
      (fun e _ => always_compensate_sends c id (.domain e)) lasting.crash fun entry _ =>
        lasting.ask (fun _ => rfl) fun event => lasting.ask (fun _ => rfl) fun written => ?_
  cases written with
  | error e => exact always_compensate_sends c id e
  | ok u => exact lasting.ask (fun _ => rfl) fun _ => lasting.done _

/-- What a payment has sent about holds: nothing, or the request for a hold under an identifier that
it drew, and perhaps the release of this hold. -/
def Sent (c : PaymentCommand) (es : List Exchange)
    (_ : Program (Except ServiceError PaymentPosted)) : Prop :=
  holdCalls es = [] ∨
    ∃ id ∈ drawn es, holdCalls es <+: [.reserve (c.hold id), .release (c.unhold id)]

theorem lasting_sent (c : PaymentCommand) : Lasting (Sent c) where
  begins _ := .inl rfl
  keeps {e es _} he h := by
    rw [Sent, holdCalls_cons_of_none he]
    refine h.imp_right ?_
    rintro ⟨id, hid, hsent⟩
    exact ⟨id, drawn_subset e es hid, hsent⟩

theorem always_reserve_sent (c : PaymentCommand) : (reserve c).Always (Sent c) := by
  refine Program.always_ask (.inl rfl) (.inl rfl) fun (id : PaymentId) => ?_
  refine Program.Always.mono (P := Sends [.reserve (c.hold id), .release (c.unhold id)]) ?_
    fun es _ h => .inr ⟨id, mem_drawn id es, h⟩
  have lasting := lasting_sends (α := Except ServiceError PaymentPosted) [.release (c.unhold id)]
  refine always_sends_ask (fun _ => rfl) fun held => ?_
  rcases held with e | o
  · exact lasting.done _
  · simp only [Program.served]
    split_ifs
    · exact lasting.ask (fun _ => rfl) (always_persist_sends c id)
    · exact lasting.done _

/-- **What a payment sends about holds**: each of its two requests at most once. -/
theorem always_post_holdCalls (r : PaymentRequest) : (post r).Always fun es _ =>
    holdCalls es = [] ∨ ∃ c id, PaymentCommand.ofRequest r = .ok c ∧ id ∈ drawn es ∧
      holdCalls es <+: [.reserve (c.hold id), .release (c.unhold id)] := by
  unfold post
  split
  · rename_i c hc
    have hsent : (run c).Always (Sent c) := lasting_unlessAnswered (lasting_sent c)
      (lasting_whenValid (lasting_sent c) (always_reserve_sent c))
    refine hsent.mono fun es _ h => h.imp_right ?_
    rintro ⟨id, hid, hpre⟩
    exact ⟨c, id, hc, hid, hpre⟩
  · exact Program.always_done (.inl rfl)

end Payments

/-! ### Requests with one key -/

/-- A request about the hold of a payment is about the account, the currency and the amount of its
command. -/
structure PaymentCommand.IsAbout (c : PaymentCommand) (h : HoldRequest) : Prop where
  account : h.account = c.source
  currency : h.currency = c.currency
  amount : h.amount = c.amount

theorem PaymentCommand.key_of_hold {c d : PaymentCommand} {id id' : PaymentId}
    (h : some (c.hold id).idempotencyKey = some (d.hold id').idempotencyKey) : c.key = d.key :=
  String.append_left_inj _ |>.1 (Option.some.inj h)

theorem PaymentCommand.key_of_unhold {c d : PaymentCommand} {id id' : PaymentId}
    (h : some (c.unhold id).idempotencyKey = some (d.unhold id').idempotencyKey) : c.key = d.key :=
  String.append_left_inj _ |>.1 (Option.some.inj h)

/-- A key for a hold is never one for a release: they end otherwise. -/
theorem PaymentCommand.hold_key_ne (c d : PaymentCommand) (id id' : PaymentId) :
    (c.hold id).idempotencyKey ≠ (d.unhold id').idempotencyKey := by
  intro h
  have hlist : c.key.toList ++ ":reserve_hold".toList = d.key.toList ++ ":release_hold".toList := by
    rw [← String.toList_append, ← String.toList_append]
    exact congrArg String.toList h
  have hlength : ":reserve_hold".toList.length = ":release_hold".toList.length := by decide
  exact absurd (List.append_inj' hlist hlength).2 (by decide)

namespace Ledger

open Log

variable {ι : Type} [DecidableEq ι]

/-- Jobs over any store, after some moves. -/
def onStore (s : Store) (jobs : ι → Job) (ms : List (Move ι)) : Ledger ι :=
  (Pool.start s fun i => (jobs i).program).after ms

/-- What two hold requests with one key have in common, sent by two jobs that are payments. -/
structure SharedKey (x : Ledger ι) (i j : ι) (r r' : PaymentRequest) (g h : HoldRequest) :
    Prop where
  /-- The two payments were asked for under one key. -/
  client : trim r.idempotencyKey = trim r'.idempotencyKey
  /-- What one payment sends under a key is one request. -/
  same : i = j → g = h
  /-- Each is about the account, the currency and the amount of its own payment. -/
  own : ∃ c, PaymentCommand.ofRequest r = .ok c ∧ c.IsAbout g
  own' : ∃ c, PaymentCommand.ofRequest r' = .ok c ∧ c.IsAbout h
  /-- The holds of two payments are not the same, if no identifier is drawn twice. -/
  apart : i ≠ j → ((x.gather Exchange.drawn?).map Prod.snd).Nodup → g.holdId ≠ h.holdId

variable (s : Store) {jobs : ι → Job} (ms : List (Move ι))

theorem eq_of_isPrefix {l : List AccountsCall} {a b b' : AccountsCall} {g g' : HoldRequest}
    (ha : a ∈ l) (hl : l <+: [.reserve g, b]) (hl' : l <+: [.reserve g', b']) : g = g' := by
  cases l with
  | nil => cases ha
  | cons call l =>
    have hcall := (List.cons_prefix_cons.1 hl).1
    exact AccountsCall.reserve.inj (hcall.symm.trans (List.cons_prefix_cons.1 hl').1)

theorem exists_of_mem_holdCalls {i : ι} {r : PaymentRequest} (hi : jobs i = .post r)
    {a : AccountsCall} (ha : a ∈ holdCalls ((onStore s jobs ms).log i)) :
    ∃ c id, PaymentCommand.ofRequest r = .ok c ∧ id ∈ drawn ((onStore s jobs ms).log i) ∧
      holdCalls ((onStore s jobs ms).log i) <+: [.reserve (c.hold id), .release (c.unhold id)] := by
  have htrace : (jobs i).program.Trace ((onStore s jobs ms).log i) ((onStore s jobs ms).rest i) :=
    Pool.trace_log s (fun i => (jobs i).program) ms i
  rw [hi] at htrace
  obtain ⟨q, ht, -⟩ := Program.exists_trace_of_trace_map htrace
  refine (Payments.always_post_holdCalls r ht).resolve_left fun h => ?_
  rw [h] at ha
  cases ha

theorem eq_of_mem_drawn {x : Ledger ι} (hx : ((x.gather Exchange.drawn?).map Prod.snd).Nodup)
    {i j : ι} {u : Uuid} (hi : u ∈ drawn (x.log i)) (hj : u ∈ drawn (x.log j)) : i = j := by
  have hij := List.inj_on_of_nodup_map hx (Pool.mem_gather.2 hi) (Pool.mem_gather.2 hj) rfl
  exact congrArg Prod.fst hij

/-- **Hold requests with one key** are of payments that were asked for under one key, and both ask
for a hold or both give one back.  Of one payment they are the same request; of two they differ in
the hold, and each is about the account, the currency and the amount of its own payment. -/
theorem sharedKey_of_key {i j : ι} {r r' : PaymentRequest} (hi : jobs i = .post r)
    (hj : jobs j = .post r') {a b : AccountsCall} (ha : a ∈ holdCalls ((onStore s jobs ms).log i))
    (hb : b ∈ holdCalls ((onStore s jobs ms).log j)) (hkey : a.key? = b.key?) :
    ∃ g h, a.Alike b g h ∧ SharedKey (onStore s jobs ms) i j r r' g h := by
  obtain ⟨c, id, hc, hid, hcalls⟩ := exists_of_mem_holdCalls s ms hi ha
  obtain ⟨d, id', hd, hid', hcalls'⟩ := exists_of_mem_holdCalls s ms hj hb
  -- whichever of the two requests it is, it is made of the command and the identifier
  have shared (f : PaymentCommand → PaymentId → HoldRequest)
      (about : ∀ c id, c.IsAbout (f c id) ∧ (f c id).holdId = id) (hcd : c.key = d.key) :
      SharedKey (onStore s jobs ms) i j r r' (f c id) (f d id') := by
    refine ⟨?_, ?_, ⟨c, hc, (about c id).1⟩, ⟨d, hd, (about d id').1⟩, ?_⟩
    · rw [← PaymentCommand.key_of_ofRequest hc, ← PaymentCommand.key_of_ofRequest hd, hcd]
    · rintro rfl
      obtain rfl : r = r' := Job.post.inj (hi.symm.trans hj)
      obtain rfl : c = d := Except.ok.inj (hc.symm.trans hd)
      exact congrArg (f c) (congrArg HoldRequest.holdId (eq_of_isPrefix ha hcalls hcalls'))
    · intro hij hx
      rw [(about c id).2, (about d id').2]
      rintro rfl
      exact hij (eq_of_mem_drawn hx hid hid')
  have ha' := hcalls.subset ha
  have hb' := hcalls'.subset hb
  simp only [List.mem_cons, List.not_mem_nil, or_false] at ha' hb'
  obtain rfl | rfl := ha' <;> obtain rfl | rfl := hb'
  · exact ⟨_, _, .reserve _ _, shared PaymentCommand.hold (fun _ _ => ⟨⟨rfl, rfl, rfl⟩, rfl⟩)
      (PaymentCommand.key_of_hold hkey)⟩
  · exact absurd (Option.some.inj hkey) (PaymentCommand.hold_key_ne c d id id')
  · exact absurd (Option.some.inj hkey).symm (PaymentCommand.hold_key_ne d c id' id)
  · exact ⟨_, _, .release _ _, shared PaymentCommand.unhold (fun _ _ => ⟨⟨rfl, rfl, rfl⟩, rfl⟩)
      (PaymentCommand.key_of_unhold hkey)⟩

/-- The order of a retry: the first write fails and the hold is released; then the request is made
again. -/
def retryMoves : List (Move Bool) :=
  .failNext :: turns true [0, 0, 1, 0, 0, 3, 4, 5, 6, 0, 0, 0, 0] ++ turns false [0, 0, 11, 0]

/-- A payment whose write fails, and one with the same request after it. -/
def retry : Ledger Bool := (start .empty false fun _ => .post raceRequest).after retryMoves

/-- The hold that the payment asks for under an identifier. -/
def retryHold (id : Nat) : HoldRequest := { raceHold with holdId := .ofNat id }

/-- The release of a hold of the retry. -/
def retryRelease (id : Nat) : HoldRequest :=
  { retryHold id with
    idempotencyKey := "order-0001:release_hold", reason := some "payment-compensation" }

theorem holdCalls_retry :
    holdCalls (retry.log true) = [.reserve (retryHold 1), .release (retryRelease 1)] ∧
      holdCalls (retry.log false) = [.reserve (retryHold 11)] := by
  decide +kernel

theorem mem_retry : AccountsCall.reserve (retryHold 1) ∈ holdCalls (retry.log true) ∧
    AccountsCall.reserve (retryHold 11) ∈ holdCalls (retry.log false) := by
  rw [holdCalls_retry.1, holdCalls_retry.2]
  exact ⟨List.mem_cons_self, List.mem_cons_self⟩

/-- The requests for a hold of the retry have one key, and are about one account and amount. -/
theorem sharedKey_in_retry : AccountsCall.reserve (retryHold 1) ∈ holdCalls (retry.log true) ∧
    AccountsCall.reserve (retryHold 11) ∈ holdCalls (retry.log false) ∧
    (AccountsCall.reserve (retryHold 1)).key? = (AccountsCall.reserve (retryHold 11)).key? ∧
    ∃ g h, (AccountsCall.reserve (retryHold 1)).Alike (.reserve (retryHold 11)) g h ∧
      SharedKey retry true false raceRequest raceRequest g h :=
  ⟨mem_retry.1, mem_retry.2, rfl, sharedKey_of_key (.ofMemory .empty false) retryMoves rfl rfl
    mem_retry.1 mem_retry.2 rfl⟩

/-- The hold of the first payment of the retry was released; then the second one asks for another
hold under the same key. -/
theorem hold_key_used_again :
    AccountsCall.release (retryRelease 1) ∈ holdCalls (retry.log true) ∧
    ¬ ∀ a ∈ holdCalls (retry.log true), ∀ b ∈ holdCalls (retry.log false),
      a.key? = b.key? → a = b := by
  refine ⟨by simp [holdCalls_retry.1], fun h => ?_⟩
  have hsame := h _ mem_retry.1 _ mem_retry.2 rfl
  exact absurd (congrArg HoldRequest.holdId (AccountsCall.reserve.inj hsame)) (by decide)

end Ledger

end DoubleEntry
