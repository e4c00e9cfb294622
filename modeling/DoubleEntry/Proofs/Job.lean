import DoubleEntry.Proofs.Command
import DoubleEntry.Proofs.PaymentTrace
import DoubleEntry.Proofs.PlainTrace
import DoubleEntry.Proofs.PostingTrace

/-!
# Jobs

All that is ever carried out over a store: calls of the services, and iterations of the workers of
the relay.

## Main definitions

* `Job`, `Job.Reply`, `Job.program`: the jobs, what they end with, and how they are carried out.
* `Job.key?`: the key of a job that has one.
* `Job.Progress`: what a job has done at any moment.

## Main results

* `Job.progress_of_trace`: every trace of a job is one of a `Progress`.
-/

namespace DoubleEntry

/-- What is carried out over a store. -/
inductive Job where
  | post (r : PaymentRequest)
  | credit (r : CreditRequest)
  | manual (r : ManualRequest)
  | find (id : PaymentId)
  | journals (account : String) (q : ActivityQuery)
  | statement (account : String) (q : StatementQuery)
  | relay (c : RelayConfig)

namespace Job

/-- What a job ends with. -/
inductive Reply where
  | posted (r : Except ServiceError PaymentPosted)
  | booked (r : Except ServiceError JournalPosted)
  | shown (r : Except ServiceError PaymentView)
  | listed (r : Except ServiceError JournalPage)
  | stated (r : Except ServiceError StatementPage)
  | relayed (o : RunOutcome)

/-- How a job is carried out. -/
def program : Job → Program Reply
  | post r => (Payments.post r).map .posted
  | credit r => (Postings.credit r).map .booked
  | manual r => (Postings.postManual r).map .booked
  | find id => (Payments.find id).map .shown
  | journals account q => (Listings.journals account q).map .listed
  | statement account q => (Listings.statement account q).map .stated
  | relay c => (Relay.runOnce c).map .relayed

/-- The key of a job, without blanks around it. -/
def key? : Job → Option String
  | post r => some (trim r.idempotencyKey)
  | credit r => some (trim r.idempotencyKey)
  | _ => none

end Job

namespace Job

/-- What a job has done. -/
inductive Progress (es : List Exchange) : Job → Program Reply → Prop
  | payment {r : PaymentRequest} {c : PaymentCommand}
    {q : Program (Except ServiceError PaymentPosted)}
    (command : PaymentCommand.ofRequest r = .ok c) (progress : Payments.Progress c es q) :
    Progress es (.post r) (q.map .posted)
  | topUp {r : CreditRequest} {c : CreditCommand} {q : Program (Except ServiceError JournalPosted)}
    (command : CreditCommand.ofRequest r = .ok c) (holdless : Postings.Holdless es)
    (progress : Postings.Credited c es q) : Progress es (.credit r) (q.map .booked)
  | journal {r : ManualRequest} {c : ManualCommand}
    {q : Program (Except ServiceError JournalPosted)}
    (command : ManualCommand.ofRequest r = .ok c) (holdless : Postings.Holdless es)
    (progress : Postings.Booked c es q) : Progress es (.manual r) (q.map .booked)
  /-- A job that is refused, reads or publishes. -/
  | plain {j : Job} {q : Program Reply} (plain : ∀ e ∈ es, e.IsPlain)
    (posts : ∀ a, q ≠ .done (.posted (.ok a))) (books : ∀ a, q ≠ .done (.booked (.ok a))) :
    Progress es j q

theorem Progress.refused {α : Type} {f : Except ServiceError α → Reply} {e : ServiceError} {j : Job}
    {es : List Exchange} {q : Program (Except ServiceError α)} (h : (Program.fail e).Trace es q)
    (hf : f (.error e) = .posted (.error e) ∨ f (.error e) = .booked (.error e)) :
    Progress es j (q.map f) := by
  cases h
  refine .plain (List.forall_mem_nil _) (fun a ha => ?_) (fun a ha => ?_)
  all_goals
    obtain ⟨b, hb, hfb⟩ := Program.map_eq_done ha
    cases hb
    rcases hf with hf | hf <;> rw [hf] at hfb <;> cases hfb

theorem Progress.of_isPlain {α : Type} {f : α → Reply} {p : Program α} {j : Job}
    {es : List Exchange} {q : Program Reply} (hp : p.IsPlain) (h : (p.map f).Trace es q)
    (posts : ∀ a b, f a ≠ .posted b) (books : ∀ a b, f a ≠ .booked b) : Progress es j q := by
  obtain ⟨q', ht, rfl⟩ := Program.exists_trace_of_trace_map h
  refine .plain (hp ht) (fun a ha => ?_) (fun a ha => ?_)
  · obtain ⟨b, -, hb⟩ := Program.map_eq_done ha
    exact posts _ _ hb
  · obtain ⟨b, -, hb⟩ := Program.map_eq_done ha
    exact books _ _ hb

/-- **Every trace of a job** is one of a `Progress`. -/
theorem progress_of_trace {j : Job} {es : List Exchange} {q : Program Reply}
    (h : j.program.Trace es q) : Progress es j q := by
  cases j with
  | post r =>
    obtain ⟨q, ht, rfl⟩ := Program.exists_trace_of_trace_map h
    unfold Payments.post at ht
    split at ht
    · rename_i c hc
      have hp := Payments.always_run c ht
      exact .payment hc hp
    -- there is no command: the request is refused before anything is asked
    · exact .refused ht (.inl rfl)
  | credit r =>
    obtain ⟨q, ht, rfl⟩ := Program.exists_trace_of_trace_map h
    unfold Postings.credit at ht
    split at ht
    · rename_i c hc
      obtain ⟨hl, hp⟩ := Postings.always_runCredit c ht
      exact .topUp hc hl hp
    · exact .refused ht (.inr rfl)
  | manual r =>
    obtain ⟨q, ht, rfl⟩ := Program.exists_trace_of_trace_map h
    unfold Postings.postManual at ht
    split at ht
    · rename_i c hc
      obtain ⟨hl, hp⟩ := Postings.always_runManual c ht
      exact .journal hc hl hp
    · exact .refused ht (.inr rfl)
  | find id =>
    exact .of_isPlain (f := .shown) (Payments.isPlain_find id) h (by rintro _ _ ⟨⟩)
      (by rintro _ _ ⟨⟩)
  | journals account q =>
    exact .of_isPlain (f := .listed) (Listings.isPlain_journals account q) h (by rintro _ _ ⟨⟩)
      (by rintro _ _ ⟨⟩)
  | statement account q =>
    exact .of_isPlain (f := .stated) (Listings.isPlain_statement account q) h (by rintro _ _ ⟨⟩)
      (by rintro _ _ ⟨⟩)
  | relay c =>
    exact .of_isPlain (f := .relayed) (Relay.isPlain_runOnce c) h (by rintro _ _ ⟨⟩)
      (by rintro _ _ ⟨⟩)

end Job

end DoubleEntry
