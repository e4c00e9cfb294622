import DoubleEntry.Proofs.Job

/-!
# Deeds of the postings

Of all that a posting asks of the world, others see only a few things: that it asks for a hold or
gives one back, that its rows are written, and the records that it hands to the audit.  These are
its deeds.  When a posting has ended its deeds are one of a few lists (`Payments.Ends`,
`Postings.Ends`), whatever it was answered.

## Main definitions

* `Exchange.isDeed`, `Log.deeds`: the exchanges that others see.
* `Exchange.audit?`, `Log.records`: the records that were handed to the audit.
* `Program.Does`: what holds of the deeds of a program when it has ended.

## Main results

* `Payments.does_post`, `Postings.does_credit`, `Postings.does_postManual`: the deeds of the three
  postings.
-/

namespace DoubleEntry

namespace Exchange

/-- The exchange asks for a hold or gives one back, writes rows, or hands a record to the audit. -/
def isDeed : Exchange → Bool
  | ⟨.accounts (.reserve _), _⟩ => true
  | ⟨.accounts (.release _), _⟩ => true
  | ⟨.store (.post _), some (.ok _)⟩ => true
  | ⟨.audit _, _⟩ => true
  | _ => false

/-- The record that was handed to the audit, whatever became of it. -/
def audit? : Exchange → Option AuditRecord
  | ⟨.audit a, _⟩ => some a
  | _ => none

/-- The hold that was given back, if the accounts service said that it is. -/
def freed? : Exchange → Option HoldRequest
  | ⟨.accounts (.release h), some (.ok o)⟩ => if o.ok then some h else none
  | _ => none

theorem eq_none_of_isDeed {e : Exchange} (h : e.isDeed = false) :
    e.audit? = none ∧ e.freed? = none ∧ e.hold? = none ∧ e.commit? = none := by
  obtain ⟨r, a⟩ := e
  cases r with
  | accounts c =>
    cases c with
    | reserve _ | release _ => cases h
    | _ => exact ⟨rfl, rfl, rfl, rfl⟩
  | store q =>
    cases q with
    | post rows =>
      rcases a with _ | (_ | _)
      · exact ⟨rfl, rfl, rfl, rfl⟩
      · exact ⟨rfl, rfl, rfl, rfl⟩
      · cases h
    | _ => exact ⟨rfl, rfl, rfl, rfl⟩
  | audit a => cases h
  | _ => exact ⟨rfl, rfl, rfl, rfl⟩

end Exchange

namespace Log

/-- The exchanges that others see. -/
def deeds (es : List Exchange) : List Exchange := es.filter Exchange.isDeed

/-- The records that were handed to the audit. -/
def records (es : List Exchange) : List AuditRecord := es.filterMap Exchange.audit?

/-- The holds that were given back. -/
def freed (es : List Exchange) : List HoldRequest := es.filterMap Exchange.freed?

theorem filterMap_deeds {β : Type} {g : Exchange → Option β}
    (h : ∀ e, e.isDeed = false → g e = none) (es : List Exchange) :
    (deeds es).filterMap g = es.filterMap g := by
  rw [deeds, List.filterMap_filter]
  refine List.filterMap_congr fun e _ => ?_
  cases he : e.isDeed with
  | true => rfl
  | false => exact (h e he).symm

theorem records_deeds (es : List Exchange) : records (deeds es) = records es :=
  filterMap_deeds (fun _ h => (Exchange.eq_none_of_isDeed h).1) es

theorem freed_deeds (es : List Exchange) : freed (deeds es) = freed es :=
  filterMap_deeds (fun _ h => (Exchange.eq_none_of_isDeed h).2.1) es

theorem holds_deeds (es : List Exchange) : holds (deeds es) = holds es :=
  filterMap_deeds (fun _ h => (Exchange.eq_none_of_isDeed h).2.2.1) es

theorem commits_deeds (es : List Exchange) : commits (deeds es) = commits es :=
  filterMap_deeds (fun _ h => (Exchange.eq_none_of_isDeed h).2.2.2) es

end Log

/-! ### Following a program to its end -/

namespace Program

variable {α β : Type} {Q : List Exchange → Prop}

/-- When the program has ended, its deeds satisfy `Q`. -/
def Does (p : Program α) (Q : List Exchange → Prop) : Prop :=
  ∀ ⦃es : List Exchange⦄ ⦃a : α⦄, p.Trace es (.done a) → Q (Log.deeds es)

theorem does_done {a : α} (h : Q []) : (Program.done a).Does Q := by
  rintro es b ⟨⟩
  exact h

theorem does_crash : (Program.crash : Program α).Does Q := by
  rintro es a ⟨⟩

theorem does_ask {r : Request} {k : r.Answer → Program α}
    (h : ∀ a, (k a).Does fun ds => Q (Log.deeds [⟨r, some a⟩] ++ ds)) :
    (Program.ask r k).Does Q := by
  intro es b ht
  cases ht with
  | @cons _ _ a es _ ht =>
  cases a with
  | none => cases ht
  | some a =>
    have hdeeds : Log.deeds (⟨r, some a⟩ :: es) = Log.deeds [⟨r, some a⟩] ++ Log.deeds es :=
      List.filter_append (p := Exchange.isDeed) [⟨r, some a⟩] es
    rw [hdeeds]
    exact h a ht

theorem does_ofHalt {ε : Type} {r : Except (Halt ε) β} {refused : ε → Program α}
    {k : β → Program α} (hr : ∀ e, (refused e).Does Q) (hk : ∀ b, r = .ok b → (k b).Does Q) :
    (ofHalt r refused k).Does Q := by
  rcases r with (e | _) | b
  · exact hr e
  · exact does_crash
  · exact hk b rfl

theorem Does.mono {p : Program α} {Q' : List Exchange → Prop} (h : p.Does Q)
    (hQ : ∀ ds, Q ds → Q' ds) : p.Does Q' :=
  fun _ _ ht => hQ _ (h ht)

theorem does_map {f : α → β} {p : Program α} (h : p.Does Q) : (p.map f).Does Q := by
  intro es b ht
  obtain ⟨q, ht, hq⟩ := exists_trace_of_trace_map ht
  obtain ⟨a, rfl, -⟩ := map_eq_done hq.symm
  exact h ht

theorem does_freshIds {k : List Uuid → Program α} (h : ∀ ids, (k ids).Does Q) (n : Nat) :
    (Postings.freshIds n k).Does Q := by
  induction n generalizing k with
  | zero => exact h []
  | succ n ih => exact does_ask fun id => ih fun ids => h (id :: ids)

end Program

open Program

/-! ### Payments -/

namespace Payments

variable {α : Type} {Q : List Exchange → Prop} {k : Program (Except ServiceError α)}

theorem does_unlessAnswered {key operation : String} {dec : Decoder α} (none : Q [])
    (hk : k.Does Q) : (unlessAnswered key operation dec k).Does Q := by
  refine does_ask fun found => ?_
  rcases replayed operation dec found with e | (_ | a)
  · exact does_done none
  · exact hk
  · exact does_done none

theorem does_whenValid {source destination : AccountId} {currency : Currency} {amount : Decimal}
    (none : Q []) (hk : k.Does Q) : (whenValid source destination currency amount k).Does Q := by
  refine does_ask fun v => ?_
  rcases v with e | v
  · exact does_done none
  · simp only [served]
    split_ifs
    · exact hk
    · exact does_done none

/-- The accounts service said that it gave the hold back. -/
def isFreed : Except GatewayError HoldOutcome → Bool
  | .ok o => o.ok
  | .error _ => false

theorem freed_release (h : HoldRequest) (a : Except GatewayError HoldOutcome)
    (es : List Exchange) : Log.freed (⟨.accounts (.release h), some a⟩ :: es) =
      if isFreed a then h :: Log.freed es else Log.freed es := by
  rcases a with e | ⟨_ | _, _, _⟩
  all_goals rfl

/-- What a payment says about itself to the audit when it was posted. -/
def postedRecord (c : PaymentCommand) (id : PaymentId) (now : Instant) : AuditRecord :=
  .of "payments.post" c.resource id.toText now
    (.record [("currency", c.currency.toJson), ("amount", .str c.amount.amountText)])

/-- What a payment says about itself to the audit when it could not be written. -/
def failedRecord (c : PaymentCommand) (id : PaymentId) (at_ : Instant) (e : StoreError)
    (compensated : Bool) : AuditRecord :=
  .of "payments.post.failed" c.resource id.toText at_
    (.record [("error", .str e.message), ("compensated", .bool compensated)])

/-- The deeds of a payment that has ended. -/
inductive Ends (c : PaymentCommand) : List Exchange → Prop
  | idle : Ends c []
  /-- The hold was not granted. -/
  | denied {id : PaymentId} {a : Except GatewayError HoldOutcome}
    (denied : ∀ o, a = .ok o → o.ok = false) :
    Ends c [⟨.accounts (.reserve (c.hold id)), some a⟩]
  | posted {id : PaymentId} {o : HoldOutcome} {entry : JournalEntry} {event : EventId}
    {now : Instant} {u : Unit} {a : Except AuditError Unit} (granted : o.ok = true) :
    Ends c [⟨.accounts (.reserve (c.hold id)), some (.ok o)⟩,
      ⟨.store (.post (c.rows id entry event now)), some (.ok u)⟩,
      ⟨.audit (postedRecord c id now), some a⟩]
  | failed {id : PaymentId} {o : HoldOutcome} {released : Except GatewayError HoldOutcome}
    {at_ : Instant} {e : StoreError} {a : Except AuditError Unit} (granted : o.ok = true) :
    Ends c [⟨.accounts (.reserve (c.hold id)), some (.ok o)⟩,
      ⟨.accounts (.release (c.unhold id)), some released⟩,
      ⟨.audit (failedRecord c id at_ e (isFreed released)), some a⟩]

variable {c : PaymentCommand} {id : PaymentId}

theorem does_compensate {e : StoreError} (h : ∀ released at_ a,
    Q [⟨.accounts (.release (c.unhold id)), some released⟩,
      ⟨.audit (failedRecord c id at_ e (isFreed released)), some a⟩]) :
    (compensate c id e).Does Q := by
  refine does_ask fun released => does_ask fun at_ => does_ask fun a => ?_
  have hends := h released at_ a
  rcases released with err | o
  all_goals
    cases e with
    | conflict _ => exact does_unlessAnswered hends (does_done hends)
    | _ => exact does_done hends

theorem does_persist {now : Instant}
    (posted : ∀ entry event u a, Q [⟨.store (.post (c.rows id entry event now)), some (.ok u)⟩,
      ⟨.audit (postedRecord c id now), some a⟩])
    (failed : ∀ e released at_ a, Q [⟨.accounts (.release (c.unhold id)), some released⟩,
      ⟨.audit (failedRecord c id at_ e (isFreed released)), some a⟩]) :
    (persist c id now).Does Q := by
  refine does_ask fun journal => does_ask fun debitLine => does_ask fun creditLine =>
    does_ofHalt (fun e => does_compensate (failed (.domain e))) fun entry _ => does_ask fun event =>
      does_ask fun written => ?_
  cases written with
  | error e => exact does_compensate (failed e)
  | ok u => exact does_ask fun a => does_done (posted entry event u a)

theorem does_reserve : (reserve c).Does (Ends c) := by
  refine does_ask fun (id : PaymentId) => does_ask fun held => ?_
  have denied : ∀ {a : Except GatewayError HoldOutcome}, (∀ o, a = .ok o → o.ok = false) →
      Ends c [⟨.accounts (.reserve (c.hold id)), some a⟩] := .denied
  rcases held with e | o
  · exact does_done (denied nofun)
  · simp only [served]
    split_ifs with ho
    · refine does_ask fun now => does_persist ?_ ?_
      · exact fun _ _ _ _ => .posted ho
      · exact fun _ _ _ _ => .failed ho
    · refine does_done (denied ?_)
      rintro _ ⟨⟩
      simpa using ho

theorem does_post (r : PaymentRequest) :
    (post r).Does fun ds => ds = [] ∨ ∃ c, PaymentCommand.ofRequest r = .ok c ∧ Ends c ds := by
  unfold post
  split
  · rename_i c hc
    refine Does.mono (Q := Ends c) ?_ fun ds h => .inr ⟨c, hc, h⟩
    exact does_unlessAnswered .idle (does_whenValid .idle does_reserve)
  · exact does_done (.inl rfl)

end Payments

/-! ### Postings without a payment -/

namespace Postings

/-- The deeds of a posting without a payment that has ended: its rows, with one journal and no
payment, and a record of an action about the journal. -/
inductive Ends (action actor : String) : List Exchange → Prop
  | idle : Ends action actor []
  | booked {rows : List Row} {entry : JournalEntry} {r : AuditRecord} {u : Unit}
    {a : Except AuditError Unit} (payments : rows.filterMap Row.payment? = [])
    (journals : rows.filterMap Row.journal? = [entry]) (action_eq : r.action = action)
    (entity : r.entityId = entry.id.toText) (actor_eq : r.actor = actor) :
    Ends action actor [⟨.store (.post rows), some (.ok u)⟩, ⟨.audit r, some a⟩]

theorem does_persistCredit (c : CreditCommand) :
    (persistCredit c).Does (Ends "ledger.credit" c.initiatedBy) := by
  refine does_ask fun now => does_ask fun journal => does_ask fun debitLine =>
    does_ask fun creditLine => does_ofHalt (fun e => does_done .idle) fun entry booked =>
      does_ask fun event => does_ask fun written => ?_
  cases written with
  | ok u =>
    have hid : entry.id = journal := by rw [(JournalEntry.posted_eq_ok booked).1]
    exact does_ask fun a => does_done (.booked rfl rfl rfl (hid ▸ rfl) rfl)
  | error e =>
    cases e with
    | conflict _ => exact Payments.does_unlessAnswered .idle (does_done .idle)
    | _ => exact does_done .idle

theorem does_credit (r : CreditRequest) : (credit r).Does fun ds => ds = [] ∨
    ∃ c, CreditCommand.ofRequest r = .ok c ∧ Ends "ledger.credit" c.initiatedBy ds := by
  unfold credit
  split
  · rename_i c hc
    refine Does.mono (Q := Ends "ledger.credit" c.initiatedBy) ?_ fun ds h => .inr ⟨c, hc, h⟩
    exact Payments.does_unlessAnswered .idle
      (Payments.does_whenValid .idle (does_persistCredit c))
  · exact does_done (.inl rfl)

theorem does_persistManual (c : ManualCommand) (now : Instant) (journal : JournalId)
    (ids : List Uuid) :
    (persistManual c now journal ids).Does (Ends "ledger.manual_entry" c.initiatedBy) := by
  refine does_ofHalt (fun e => does_done .idle) fun entry booked =>
    does_ofHalt (fun _ => does_crash) fun total _ => does_ask fun event =>
      does_ask fun written => ?_
  cases written with
  | ok u =>
    have hid : entry.id = journal := by rw [(JournalEntry.posted_eq_ok booked).1]
    exact does_ask fun a => does_done (.booked rfl rfl rfl (hid ▸ rfl) rfl)
  | error e => exact does_done .idle

theorem does_postManual (r : ManualRequest) : (postManual r).Does fun ds => ds = [] ∨
    ∃ c, ManualCommand.ofRequest r = .ok c ∧ Ends "ledger.manual_entry" c.initiatedBy ds := by
  unfold postManual
  split
  · rename_i c hc
    refine Does.mono (Q := Ends "ledger.manual_entry" c.initiatedBy) ?_ fun ds h =>
      .inr ⟨c, hc, h⟩
    exact does_ask fun now => does_ask fun journal =>
      does_freshIds (does_persistManual c now journal) _
  · exact does_done (.inl rfl)

end Postings

end DoubleEntry
