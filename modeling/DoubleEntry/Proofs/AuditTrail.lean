import DoubleEntry.Proofs.Deeds
import DoubleEntry.Proofs.JsonRecord
import DoubleEntry.Proofs.Ledger
import Mathlib.Data.List.Count

/-!
# The trail of the postings

What a posting hands to the audit is an account of what it did.  A payment that was written leaves
one record; a hold that was granted, and whose payment was not written, leaves one, which says
whether the hold was given back; a top-up and a journal of given lines leave one each.  Nothing else
leaves any: not a request that is refused, nor an answer that is given again.

Each call of a posting is seen to keep to this in its deeds, when it has ended (`Job.accounted`).
What every call has kept to holds of the whole trail, up to the order of its records
(`Ledger.audited_of_ended`).

## Main definitions

* `Job.IsPosting`, `Job.actor`: the postings, and who asks for them.
* `Log.written`, `Log.undone`, `Log.recordsOf`: what exchanges have written, the holds without a
  payment among them, and their records of an action.
* `Pool.written`, `Pool.undone`, `Pool.trail`: the same of many programs, each with its program.
* `Job.Accounted`, `Ledger.Audited`: the records are those of what was done.
-/

namespace DoubleEntry

namespace Job

/-- The job is a payment, a top-up or a journal of given lines. -/
def IsPosting : Job → Prop
  | post _ | credit _ | manual _ => True
  | _ => False

/-- The job is a top-up. -/
def isCredit : Job → Bool
  | credit _ => true
  | _ => false

/-- The job is a journal of given lines. -/
def isManual : Job → Bool
  | manual _ => true
  | _ => false

/-- Who asks for a posting, without blanks around it. -/
def actor : Job → String
  | post r => trim r.initiatedBy
  | credit r => trim r.initiatedBy
  | manual r => trim r.initiatedBy
  | _ => ""

end Job

/-! ### The records of one posting -/

namespace Log

variable {β : Type}

/-- What the rows that were written amount to. -/
def written (g : Row → Option β) (es : List Exchange) : List β :=
  (commits es).flatMap (List.filterMap g)

/-- The records of an action. -/
def recordsOf (action : String) (es : List Exchange) : List AuditRecord :=
  (records es).filter fun a => a.action = action

/-- The payment was written. -/
def isPosted (id : PaymentId) (es : List Exchange) : Bool :=
  (written Row.payment? es).any fun p => p.id = id

/-- The hold was given back. -/
def isFreed (id : PaymentId) (es : List Exchange) : Bool :=
  (freed es).any fun h => h.holdId = id

/-- The holds that were granted, and whose payment was not written. -/
def undone (es : List Exchange) : List HoldRequest :=
  ((holds es).filter fun h => h.2.ok && !isPosted h.1.holdId es).map Prod.fst

theorem recordsOf_singleton {es : List Exchange} {a : AuditRecord} {name : String}
    (h : records es = [a]) (hname : a.action = name) (action : String) :
    recordsOf action es = if name = action then [a] else [] := by
  simp [recordsOf, h, hname, List.filter_singleton]

end Log

open Log

/-- The records of a posting are those of what it did. -/
structure Job.Accounted (j : Job) (es : List Exchange) : Prop where
  posted : (recordsOf "payments.post" es).map (fun a => (a.entityId, a.actor)) =
    (written Row.payment? es).map fun p => (p.id.toText, j.actor)
  failed : (recordsOf "payments.post.failed" es).map
      (fun a => (a.entityId, a.actor, a.details.field? "compensated")) =
    (undone es).map fun h => (h.holdId.toText, j.actor, some (.bool (isFreed h.holdId es)))
  credited : (recordsOf "ledger.credit" es).map (fun a => (a.entityId, a.actor)) =
    ((written Row.journal? es).filter fun _ => j.isCredit).map fun k => (k.id.toText, j.actor)
  booked : (recordsOf "ledger.manual_entry" es).map (fun a => (a.entityId, a.actor)) =
    ((written Row.journal? es).filter fun _ => j.isManual).map fun k => (k.id.toText, j.actor)
  only : ∀ a ∈ records es, a.action ∈
    ["payments.post", "payments.post.failed", "ledger.credit", "ledger.manual_entry"]

namespace Job

theorem accounted_nil (j : Job) : j.Accounted [] :=
  ⟨rfl, rfl, rfl, rfl, List.forall_mem_nil _⟩

end Job

/-! ### Payments -/

namespace Payments

variable {r : PaymentRequest} {c : PaymentCommand} {es : List Exchange} {id : PaymentId}
  {o : HoldOutcome}

theorem accounted_of_denied (hr : records es = []) (hc : commits es = [])
    (hh : ∀ h ∈ holds es, h.2.ok = false) : (Job.post r).Accounted es := by
  have hundone : undone es = [] := by
    simp only [undone, List.map_eq_nil_iff, List.filter_eq_nil_iff]
    intro h hm
    simp [hh h hm]
  constructor <;> simp [recordsOf, written, hr, hc, hundone]

/-- A payment that was written leaves a record of it, and none of its hold. -/
theorem accounted_of_posted {entry : JournalEntry} {event : EventId} {now : Instant}
    (hactor : c.initiatedBy = trim r.initiatedBy) (hr : records es = [postedRecord c id now])
    (hh : holds es = [(c.hold id, o)]) (hc : commits es = [c.rows id entry event now]) :
    (Job.post r).Accounted es := by
  have hpaid : written Row.payment? es = [c.payment id entry.id now] := by
    rw [written, hc]
    rfl
  -- the hold has the identifier of the payment, which was written
  have hundone : undone es = [] := by
    simp [undone, isPosted, hh, hpaid, PaymentCommand.hold, PaymentCommand.payment]
  have hof := recordsOf_singleton hr (show _ = "payments.post" from rfl)
  constructor
  case posted => rw [hof, if_pos rfl, hpaid, Job.actor, ← hactor]; rfl
  case failed => rw [hof, if_neg (by decide), hundone]; rfl
  case credited => rw [hof, if_neg (by decide)]; simp [Job.isCredit]
  case booked => rw [hof, if_neg (by decide)]; simp [Job.isManual]
  case only => rw [hr]; simp [postedRecord, AuditRecord.of]

/-- A payment that could not be written leaves a record of its hold, and whether it was given
back. -/
theorem accounted_of_failed {released : Except GatewayError HoldOutcome} {at_ : Instant}
    {e : StoreError} (hactor : c.initiatedBy = trim r.initiatedBy)
    (hr : records es = [failedRecord c id at_ e (isFreed released)])
    (granted : o.ok = true) (hh : holds es = [(c.hold id, o)]) (hc : commits es = [])
    (hf : freed es = if isFreed released then [c.unhold id] else []) :
    (Job.post r).Accounted es := by
  have hundone : undone es = [c.hold id] := by
    simp [undone, isPosted, written, hh, hc, granted]
  have hfreed : Log.isFreed id es = isFreed released := by
    cases hrel : isFreed released <;> simp [Log.isFreed, hf, hrel, PaymentCommand.unhold]
  have hof := recordsOf_singleton hr (show _ = "payments.post.failed" from rfl)
  have hfield : (failedRecord c id at_ e (isFreed released)).details.field? "compensated" =
      some (.bool (isFreed released)) := by
    rw [failedRecord, AuditRecord.of, Json.field?_record]
    rfl
  constructor
  case posted => rw [hof, if_neg (by decide), written, hc]; rfl
  case failed =>
    rw [hof, if_pos rfl, hundone, List.map_singleton, List.map_singleton, hfield]
    change [(id.toText, c.initiatedBy, _)] = [(id.toText, trim r.initiatedBy, _)]
    rw [hactor, ← hfreed]
    rfl
  case credited => rw [hof, if_neg (by decide)]; simp [Job.isCredit]
  case booked => rw [hof, if_neg (by decide)]; simp [Job.isManual]
  case only => rw [hr]; simp [failedRecord, AuditRecord.of]

theorem Ends.accounted (h : Ends c es) (hactor : c.initiatedBy = trim r.initiatedBy) :
    (Job.post r).Accounted es := by
  cases h with
  | idle => exact accounted_of_denied rfl rfl (List.forall_mem_nil _)
  | @denied id a denied =>
    rcases a with e | o
    · exact accounted_of_denied rfl rfl (List.forall_mem_nil _)
    · exact accounted_of_denied rfl rfl (List.forall_mem_singleton.2 (denied o rfl))
  | posted _ => exact accounted_of_posted hactor rfl rfl rfl
  | failed granted =>
    exact accounted_of_failed hactor rfl granted rfl rfl (freed_release _ _ _)

end Payments

/-! ### Postings without a payment -/

namespace Postings

variable {j : Job} {es : List Exchange}

theorem accounted_of_booked {a : AuditRecord} {entry : JournalEntry} (hr : records es = [a])
    (hh : holds es = []) (payments : written Row.payment? es = [])
    (journals : written Row.journal? es = [entry]) (entity : a.entityId = entry.id.toText)
    (actor : a.actor = j.actor)
    (action : a.action = "ledger.credit" ∧ j.isCredit = true ∧ j.isManual = false ∨
      a.action = "ledger.manual_entry" ∧ j.isCredit = false ∧ j.isManual = true) :
    j.Accounted es := by
  have hundone : undone es = [] := by
    rw [undone, hh]
    rfl
  obtain ⟨ha, hcredit, hmanual⟩ | ⟨ha, hcredit, hmanual⟩ := action
  all_goals
    have hof := recordsOf_singleton hr ha
    constructor
    case posted => rw [hof, if_neg (by decide), payments]; rfl
    case failed => rw [hof, if_neg (by decide), hundone]; rfl
    case credited => rw [hof]; simp [hcredit, journals, entity, actor]
    case booked => rw [hof]; simp [hmanual, journals, entity, actor]
    case only => rw [hr]; simp [ha]

theorem Ends.accounted {action actor : String} (h : Ends action actor es) (hj : actor = j.actor)
    (haction : action = "ledger.credit" ∧ j.isCredit = true ∧ j.isManual = false ∨
      action = "ledger.manual_entry" ∧ j.isCredit = false ∧ j.isManual = true) :
    j.Accounted es := by
  cases h with
  | idle => exact Job.accounted_nil j
  | booked payments journals action_eq entity actor_eq =>
    exact accounted_of_booked rfl rfl ((List.append_nil _).trans payments)
      ((List.append_nil _).trans journals) entity (actor_eq.trans hj) (action_eq ▸ haction)

end Postings

namespace Job

theorem Accounted.of_deeds {j : Job} {es : List Exchange} (h : j.Accounted (deeds es)) :
    j.Accounted es := by
  obtain ⟨h1, h2, h3, h4, h5⟩ := h
  simp only [recordsOf, written, undone, isPosted, Log.isFreed, records_deeds, commits_deeds,
    holds_deeds, freed_deeds] at h1 h2 h3 h4 h5
  exact ⟨h1, h2, h3, h4, h5⟩

/-- **The records of a posting that has ended** are those of what it did. -/
theorem accounted {j : Job} (hj : j.IsPosting) {es : List Exchange} {a : Reply}
    (h : j.program.Trace es (.done a)) : j.Accounted es := by
  refine .of_deeds ?_
  cases j with
  | post r =>
    obtain hds | ⟨c, hc, hends⟩ := Program.does_map (Payments.does_post r) h
    · rw [hds]
      exact accounted_nil _
    · exact hends.accounted (PaymentCommand.actor_of_ofRequest hc)
  | credit r =>
    obtain hds | ⟨c, hc, hends⟩ := Program.does_map (Postings.does_credit r) h
    · rw [hds]
      exact accounted_nil _
    · exact hends.accounted (CreditCommand.actor_of_ofRequest hc) (.inl ⟨rfl, rfl, rfl⟩)
  | manual r =>
    obtain hds | ⟨c, hc, hends⟩ := Program.does_map (Postings.does_postManual r) h
    · rw [hds]
      exact accounted_nil _
    · exact hends.accounted (ManualCommand.actor_of_ofRequest hc) (.inr ⟨rfl, rfl, rfl⟩)
  | find _ | journals _ _ | statement _ _ | relay _ => exact hj.elim

end Job

/-! ### What programs have done, each with its program -/

namespace Pool

variable {ι α β γ : Type} [DecidableEq ι]

/-- What belongs to one program. -/
def ofCall (i : ι) (l : List (ι × β)) : List β :=
  l.filterMap fun b => if b.1 = i then some b.2 else none

theorem perm_of_ofCall {l l' : List (ι × β)} (h : ∀ i, ofCall i l = ofCall i l') : l.Perm l' := by
  classical
  have count_eq (l : List (ι × β)) (i : ι) (b : β) : l.count (i, b) = (ofCall i l).count b := by
    rw [ofCall, List.count_filterMap, List.count]
    refine List.countP_congr fun a _ => ?_
    simp [Prod.ext_iff]
  refine List.perm_iff_count.2 fun ⟨i, b⟩ => ?_
  rw [count_eq, count_eq, h]

theorem ofCall_map (f : ι → β → γ) (i : ι) (l : List (ι × β)) :
    ofCall i (l.map fun b => (b.1, f b.1 b.2)) = (ofCall i l).map (f i) := by
  simp only [ofCall, List.filterMap_map, List.map_filterMap]
  refine List.filterMap_congr fun b _ => ?_
  by_cases h : b.1 = i <;> simp [h]

theorem perm_map_of_ofCall {δ : Type} {l : List (ι × β)} {l' : List (ι × γ)} (f : ι → β → δ)
    (f' : ι → γ → δ) (h : ∀ i, (ofCall i l).map (f i) = (ofCall i l').map (f' i)) :
    (l.map fun b => (b.1, f b.1 b.2)).Perm (l'.map fun b => (b.1, f' b.1 b.2)) := by
  refine perm_of_ofCall fun i => ?_
  rw [ofCall_map, ofCall_map, h]

theorem ofCall_filter (P : ι → β → Bool) (i : ι) (l : List (ι × β)) :
    ofCall i (l.filter fun b => P b.1 b.2) = (ofCall i l).filter (P i) := by
  simp only [ofCall, List.filterMap_filter, List.filter_filterMap]
  refine List.filterMap_congr fun b _ => ?_
  by_cases h : b.1 = i <;> simp [h, Option.filter_some]

theorem ofCall_append (i : ι) (l l' : List (ι × β)) :
    ofCall i (l ++ l') = ofCall i l ++ ofCall i l' :=
  List.filterMap_append

theorem ofCall_flatMap (f : β → List γ) (i : ι) (l : List (ι × β)) :
    ofCall i (l.flatMap fun b => (f b.2).map fun c => (b.1, c)) = (ofCall i l).flatMap f := by
  induction l with
  | nil => rfl
  | cons b l ih =>
    have hb : ofCall i ((f b.2).map fun c => (b.1, c)) = if b.1 = i then f b.2 else [] := by
      by_cases h : b.1 = i <;> simp [ofCall, List.filterMap_map, h]
    rw [List.flatMap_cons, ofCall_append, hb, ih]
    by_cases h : b.1 = i <;> simp [ofCall, h]

theorem ofCall_gather (g : Exchange → Option β) (i : ι) (x : Pool ι α) :
    ofCall i (x.gather g) = (x.log i).filterMap g := by
  simp only [ofCall, gather, log, List.filterMap_filterMap]
  refine List.filterMap_congr fun e _ => ?_
  by_cases h : e.call = i <;> cases hg : g e.exchange <;> simp [h, hg]

/-- The records of an action that were handed to the audit. -/
def trail (action : String) (x : Pool ι α) : List (ι × AuditRecord) :=
  (x.gather Exchange.audit?).filter fun a => a.2.action = action

/-- What the rows that were written amount to. -/
def written (g : Row → Option β) (x : Pool ι α) : List (ι × β) :=
  (x.gather Exchange.commit?).flatMap fun rows => (rows.2.filterMap g).map fun b => (rows.1, b)

/-- The holds that were granted, and whose payment was not written. -/
def undone (x : Pool ι α) : List (ι × HoldRequest) :=
  ((x.gather Exchange.hold?).filter fun h =>
    h.2.2.ok && !isPosted h.2.1.holdId (x.log h.1)).map fun h => (h.1, h.2.1)

theorem ofCall_trail (action : String) (i : ι) (x : Pool ι α) :
    ofCall i (x.trail action) = recordsOf action (x.log i) := by
  rw [trail, ofCall_filter (fun _ (a : AuditRecord) => a.action = action), ofCall_gather]
  rfl

theorem ofCall_written (g : Row → Option β) (i : ι) (x : Pool ι α) :
    ofCall i (x.written g) = Log.written g (x.log i) := by
  rw [written, ofCall_flatMap, ofCall_gather]
  rfl

theorem ofCall_undone (i : ι) (x : Pool ι α) :
    ofCall i x.undone = Log.undone (x.log i) := by
  rw [undone, ofCall_map (fun _ (h : HoldRequest × HoldOutcome) => h.1), ofCall_filter
    (fun i (h : HoldRequest × HoldOutcome) => h.2.ok && !isPosted h.1.holdId (x.log i)),
    ofCall_gather]
  rfl

/-- The records of an action are about what `l` holds, if those of every program are. -/
theorem perm_trail {x : Pool ι α} {action : String} {l : List (ι × β)} (name : β → String)
    (actor : ι → String)
    (h : ∀ i, (recordsOf action (x.log i)).map (fun a => (a.entityId, a.actor)) =
      (ofCall i l).map fun b => (name b, actor i)) :
    ((x.trail action).map fun a => (a.1, a.2.entityId, a.2.actor)).Perm
      (l.map fun b => (b.1, name b.2, actor b.1)) := by
  refine perm_map_of_ofCall (fun _ (a : AuditRecord) => (a.entityId, a.actor))
    (fun i b => (name b, actor i)) fun i => ?_
  rw [ofCall_trail, h]

omit [DecidableEq ι] in
theorem map_snd_written (g : Row → Option β) (x : Pool ι α) :
    (x.written g).map Prod.snd = x.committed.filterMap g := by
  have hcommits : (x.gather Exchange.commit?).map Prod.snd = x.commits := by
    simp only [gather, commits, List.map_filterMap, Option.map_map, Function.comp_def,
      Option.map_id']
  rw [committed, ← hcommits, List.filterMap_flatten, written, List.map_flatMap]
  simp only [List.map_map, Function.comp_def, List.map_id', List.flatMap]

end Pool

namespace Ledger

variable {ι : Type} [DecidableEq ι]

/-- The trail is what the jobs did: the records of an action are about what was written or undone,
one for each, and tell who asked for it. -/
structure Audited (m : Memory) (jobs : ι → Job) (x : Ledger ι) : Prop where
  payments : x.memory.payments = m.payments ++ (x.written Row.payment?).map Prod.snd
  journals : x.memory.journals = m.journals ++ (x.written Row.journal?).map Prod.snd
  posted : ((x.trail "payments.post").map fun a => (a.1, a.2.entityId, a.2.actor)).Perm
    ((x.written Row.payment?).map fun p => (p.1, p.2.id.toText, (jobs p.1).actor))
  failed : ((x.trail "payments.post.failed").map fun a =>
      (a.1, a.2.entityId, a.2.actor, a.2.details.field? "compensated")).Perm
    (x.undone.map fun h => (h.1, h.2.holdId.toText, (jobs h.1).actor,
      some (.bool (Log.isFreed h.2.holdId (x.log h.1)))))
  credited : ((x.trail "ledger.credit").map fun a => (a.1, a.2.entityId, a.2.actor)).Perm
    (((x.written Row.journal?).filter fun k => (jobs k.1).isCredit).map fun k =>
      (k.1, k.2.id.toText, (jobs k.1).actor))
  booked : ((x.trail "ledger.manual_entry").map fun a => (a.1, a.2.entityId, a.2.actor)).Perm
    (((x.written Row.journal?).filter fun k => (jobs k.1).isManual).map fun k =>
      (k.1, k.2.id.toText, (jobs k.1).actor))
  only : ∀ a ∈ x.gather Exchange.audit?, a.2.action ∈
    ["payments.post", "payments.post.failed", "ledger.credit", "ledger.manual_entry"]

/-- **The trail of postings that have ended** is what they did. -/
theorem audited_of_ended {m : Memory} {f : Bool} {jobs : ι → Job} {ms : List (Move ι)}
    (postings : ∀ i, (jobs i).IsPosting)
    (ended : ∀ i, ∃ a, ((start m f jobs).after ms).rest i = .done a) :
    Audited m jobs ((start m f jobs).after ms) := by
  -- each call has kept to it, so the whole trail does, call by call
  have each (i : ι) : (jobs i).Accounted (((start m f jobs).after ms).log i) := by
    obtain ⟨a, ha⟩ := ended i
    have ht := Pool.trace_log (.ofMemory m f) (fun i => (jobs i).program) ms i
    exact Job.accounted (postings i) (ha ▸ ht)
  have payments := Pool.memory_payments m f (fun i => (jobs i).program) ms
  have journals := Pool.memory_journals m f (fun i => (jobs i).program) ms
  rw [← Pool.map_snd_written] at payments journals
  generalize hx : (start m f jobs).after ms = x at *
  constructor
  case payments => exact hx ▸ payments
  case journals => exact hx ▸ journals
  case posted =>
    refine Pool.perm_trail (fun p : Payment => p.id.toText) (fun i => (jobs i).actor) fun i => ?_
    rw [Pool.ofCall_written]
    exact (each i).posted
  case failed =>
    refine Pool.perm_map_of_ofCall
      (fun _ (a : AuditRecord) => (a.entityId, a.actor, a.details.field? "compensated"))
      (fun i (h : HoldRequest) => (h.holdId.toText, (jobs i).actor,
        some (.bool (Log.isFreed h.holdId (x.log i))))) fun i => ?_
    rw [Pool.ofCall_trail, Pool.ofCall_undone]
    exact (each i).failed
  case credited =>
    refine Pool.perm_trail (fun k : JournalEntry => k.id.toText) (fun i => (jobs i).actor)
      fun i => ?_
    rw [Pool.ofCall_filter (fun i _ => (jobs i).isCredit), Pool.ofCall_written]
    exact (each i).credited
  case booked =>
    refine Pool.perm_trail (fun k : JournalEntry => k.id.toText) (fun i => (jobs i).actor)
      fun i => ?_
    rw [Pool.ofCall_filter (fun i _ => (jobs i).isManual), Pool.ofCall_written]
    exact (each i).booked
  case only =>
    rintro ⟨i, a⟩ ha
    exact (each i).only a (Pool.mem_gather.1 ha)

end Ledger

end DoubleEntry
