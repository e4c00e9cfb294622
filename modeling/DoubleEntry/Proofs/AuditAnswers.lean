import DoubleEntry.Proofs.AuditTrail
import Mathlib.Data.List.Forall2

/-!
# What the audit answers

No posting looks at what the audit answers (`Program.Heedless`).  So of two runs in which everything
else is answered alike, in the same order of turns, one with an audit that keeps its records and one
with an audit that does not, nobody but the audit can tell the difference
(`Pool.sameButAudit_after`): the postings answer the same, the store holds the same, the accounts
service is asked the same and the audit is handed the same records.

## Main definitions

* `Program.Heedless`: the program goes on in one way, whatever the audit answers.
* `Move.SameButAudit`, `Pool.SameButAudit`: moves, and what comes of them, but for what the audit
  answers.

## Main results

* `Ledger.audited`: what is in the trail of postings that have ended, and that it does not matter
  what became of it.
-/

namespace DoubleEntry

/-! ### Programs that do not look at what the audit answers -/

/-- The request hands a record to the audit. -/
def Request.isAudit : Request → Bool
  | .audit _ => true
  | _ => false

namespace Program

variable {α β : Type}

/-- The program goes on in one way, whatever the audit answers. -/
inductive Heedless : Program α → Prop
  | done (a : α) : Heedless (.done a)
  | crash : Heedless .crash
  | audit {rec : AuditRecord} {p : Program α} (h : Heedless p) :
    Heedless (.ask (.audit rec) fun _ => p)
  | ask {r : Request} {k : r.Answer → Program α} (other : r.isAudit = false)
    (h : ∀ a, Heedless (k a)) : Heedless (.ask r k)

theorem Heedless.resume {r : Request} {k : r.Answer → Program α} (h : Heedless (.ask r k))
    (a : Option r.Answer) : Heedless (resume k a) := by
  cases a with
  | none => exact .crash
  | some a =>
    cases h with
    | audit h => exact h
    | ask _ h => exact h a

/-- A heedless program goes on alike after two answers of the audit, if both are crashes or none
is. -/
theorem Heedless.resume_eq {rec : AuditRecord} {k : (Request.audit rec).Answer → Program α}
    (h : Heedless (.ask (.audit rec) k)) {a a' : Option (Request.audit rec).Answer}
    (crashes : a.isSome = a'.isSome) : Program.resume k a = Program.resume k a' := by
  cases h with
  | audit _ => cases a <;> cases a' <;> first | rfl | cases crashes
  | ask other _ => cases other

theorem heedless_map {f : α → β} {p : Program α} (h : p.Heedless) : (p.map f).Heedless := by
  induction h with
  | done a => exact .done (f a)
  | crash => exact .crash
  | audit _ ih => exact .audit ih
  | ask other _ ih => exact .ask other ih

theorem heedless_ofHalt {ε : Type} {r : Except (Halt ε) β} {refused : ε → Program α}
    {k : β → Program α} (hr : ∀ e, (refused e).Heedless) (hk : ∀ b, (k b).Heedless) :
    (ofHalt r refused k).Heedless := by
  rcases r with (e | _) | b
  · exact hr e
  · exact .crash
  · exact hk b

theorem heedless_freshIds {k : List Uuid → Program α} (h : ∀ ids, (k ids).Heedless) (n : Nat) :
    (Postings.freshIds n k).Heedless := by
  induction n generalizing k with
  | zero => exact h []
  | succ n ih => exact .ask rfl fun id => ih fun ids => h (id :: ids)

end Program

open Program

namespace Payments

variable {α : Type} {k : Program (Except ServiceError α)}

theorem heedless_unlessAnswered (key operation : String) (dec : Decoder α) (hk : k.Heedless) :
    (unlessAnswered key operation dec k).Heedless := by
  refine .ask rfl fun found => ?_
  rcases replayed operation dec found with e | (_ | a)
  · exact .done _
  · exact hk
  · exact .done _

theorem heedless_whenValid (source destination : AccountId) (currency : Currency)
    (amount : Decimal) (hk : k.Heedless) :
    (whenValid source destination currency amount k).Heedless := by
  refine .ask rfl fun v => ?_
  rcases v with e | v
  · exact .done _
  · simp only [served]
    split_ifs
    · exact hk
    · exact .done _

theorem heedless_compensate (c : PaymentCommand) (id : PaymentId) (e : StoreError) :
    (compensate c id e).Heedless := by
  refine .ask rfl fun released => .ask rfl fun at_ => .audit ?_
  cases e with
  | conflict _ => exact heedless_unlessAnswered _ _ _ (.done _)
  | _ => exact .done _

theorem heedless_persist (c : PaymentCommand) (id : PaymentId) (now : Instant) :
    (persist c id now).Heedless := by
  refine .ask rfl fun journal => .ask rfl fun debitLine => .ask rfl fun creditLine =>
    heedless_ofHalt (fun e => heedless_compensate c id _) fun entry => .ask rfl fun event =>
      .ask rfl fun written => ?_
  cases written with
  | error e => exact heedless_compensate c id e
  | ok u => exact .audit (.done _)

theorem heedless_reserve (c : PaymentCommand) : (reserve c).Heedless := by
  refine .ask rfl fun id => .ask rfl fun held => ?_
  rcases held with e | o
  · exact .done _
  · simp only [served]
    split_ifs
    · exact .ask rfl (heedless_persist c id)
    · exact .done _

theorem heedless_post (r : PaymentRequest) : (post r).Heedless := by
  unfold post
  split
  · exact heedless_unlessAnswered _ _ _ (heedless_whenValid _ _ _ _ (heedless_reserve _))
  · exact .done _

end Payments

namespace Postings

theorem heedless_persistCredit (c : CreditCommand) : (persistCredit c).Heedless := by
  refine .ask rfl fun now => .ask rfl fun journal => .ask rfl fun debitLine =>
    .ask rfl fun creditLine => heedless_ofHalt (fun e => .done _) fun entry =>
      .ask rfl fun event => .ask rfl fun written => ?_
  cases written with
  | ok u => exact .audit (.done _)
  | error e =>
    cases e with
    | conflict _ => exact Payments.heedless_unlessAnswered _ _ _ (.done _)
    | _ => exact .done _

theorem heedless_credit (r : CreditRequest) : (credit r).Heedless := by
  unfold credit
  split
  · exact Payments.heedless_unlessAnswered _ _ _
      (Payments.heedless_whenValid _ _ _ _ (heedless_persistCredit _))
  · exact .done _

theorem heedless_persistManual (c : ManualCommand) (now : Instant) (journal : JournalId)
    (ids : List Uuid) : (persistManual c now journal ids).Heedless := by
  refine heedless_ofHalt (fun e => .done _) fun entry => heedless_ofHalt (fun _ => .crash)
    fun total => .ask rfl fun event => .ask rfl fun written => ?_
  cases written with
  | ok u => exact .audit (.done _)
  | error e => exact .done _

theorem heedless_postManual (r : ManualRequest) : (postManual r).Heedless := by
  unfold postManual
  split
  · exact .ask rfl fun now => .ask rfl fun journal =>
      heedless_freshIds (heedless_persistManual _ now journal) _
  · exact .done _

end Postings

/-- **No posting looks at what the audit answers.** -/
theorem Job.heedless {j : Job} (hj : j.IsPosting) : j.program.Heedless := by
  cases j with
  | post r => exact heedless_map (Payments.heedless_post r)
  | credit r => exact heedless_map (Postings.heedless_credit r)
  | manual r => exact heedless_map (Postings.heedless_postManual r)
  | find _ | journals _ _ | statement _ _ | relay _ => exact hj.elim

/-! ### Two runs -/

/-- Moves that differ at most in what the audit answers; it crashes in both, or in none. -/
inductive Move.SameButAudit {ι : Type} : Move ι → Move ι → Prop
  | failNext : SameButAudit .failNext .failNext
  | turn (i : ι) (w : Surroundings) {a : Option (Except AuditError Unit)}
    (crashes : w.audit.isSome = a.isSome) :
    SameButAudit (.turn i w) (.turn i { w with audit := a })

/-- The move with another answer of the audit. -/
def Move.withAudit {ι : Type} (a : Except AuditError Unit) : Move ι → Move ι
  | .failNext => .failNext
  | .turn i w => .turn i { w with audit := some a }

namespace Exchange

/-- The exchange without what the audit answered. -/
def unheard : Exchange → Exchange
  | ⟨.audit rec, _⟩ => ⟨.audit rec, none⟩
  | e => e

/-- What the accounts service was asked. -/
def call? : Exchange → Option AccountsCall
  | ⟨.accounts c, _⟩ => some c
  | _ => none

end Exchange

/-- The event without what the audit answered. -/
def Event.unheard {ι : Type} (e : Event ι) : Event ι := ⟨e.call, e.exchange.unheard⟩

namespace Pool

variable {ι α : Type} [DecidableEq ι] {x y : Pool ι α}

/-- Pools that differ at most in what the audit has answered. -/
structure SameButAudit (x y : Pool ι α) : Prop where
  store : x.store = y.store
  rest : x.rest = y.rest
  history : x.history.map Event.unheard = y.history.map Event.unheard

theorem ask_sameButAudit {r : Request} {k : r.Answer → Program α} (h : Heedless (.ask r k))
    {w : Surroundings} {a : Option (Except AuditError Unit)} (crashes : w.audit.isSome = a.isSome)
    (s : Store) : let w' : Surroundings := { w with audit := a }
    (w.answer r s).2 = (w'.answer r s).2 ∧
      Program.resume k (w.answer r s).1 = Program.resume k (w'.answer r s).1 ∧
      (Exchange.mk r (w.answer r s).1).unheard = (Exchange.mk r (w'.answer r s).1).unheard := by
  cases r with
  | audit rec => exact ⟨rfl, h.resume_eq crashes, rfl⟩
  -- what is not asked of the audit is answered alike
  | _ => exact ⟨rfl, rfl, rfl⟩

theorem SameButAudit.move (h : x.SameButAudit y) (heedless : ∀ i, (x.rest i).Heedless)
    {m m' : Move ι} (hm : m.SameButAudit m') :
    (x.move m).SameButAudit (y.move m') ∧ ∀ i, ((x.move m).rest i).Heedless := by
  obtain ⟨store, rest, history⟩ := h
  cases hm with
  | failNext => exact ⟨⟨congrArg Store.failNext store, rest, history⟩, heedless⟩
  | turn i w crashes =>
    simp only [Pool.move, turn, ← rest, ← store]
    have hi := heedless i
    cases hask : x.rest i with
    | done b => exact ⟨⟨store, rest, history⟩, heedless⟩
    | crash => exact ⟨⟨store, rest, history⟩, heedless⟩
    | ask r k =>
      rw [hask] at hi
      obtain ⟨hstore, hrest, hex⟩ := ask_sameButAudit hi crashes x.store
      refine ⟨⟨hstore, congrArg (Function.update x.rest i) hrest, ?_⟩, fun j => ?_⟩
      · simp [history, Event.unheard, hex]
      · by_cases hj : j = i
        · subst hj
          simpa using hi.resume _
        · simpa [hj] using heedless j

/-- **Runs that differ in what the audit answers** do the same. -/
theorem sameButAudit_after {ms ms' : List (Move ι)} (hms : List.Forall₂ Move.SameButAudit ms ms')
    (h : x.SameButAudit y) (heedless : ∀ i, (x.rest i).Heedless) :
    (x.after ms).SameButAudit (y.after ms') := by
  induction hms generalizing x y with
  | nil => exact h
  | cons hm _ ih =>
    obtain ⟨hmove, hheedless⟩ := h.move heedless hm
    exact ih hmove hheedless

omit [DecidableEq ι] in
theorem SameButAudit.gather_eq (h : x.SameButAudit y) {β : Type} {g : Exchange → Option β}
    (hg : ∀ e, g e.unheard = g e) : x.gather g = y.gather g := by
  have unheard (z : Pool ι α) : z.gather g =
      (z.history.map Event.unheard).filterMap fun e => (g e.exchange).map fun b => (e.call, b) := by
    simp only [gather, List.filterMap_map, Function.comp_def, Event.unheard, hg]
  rw [unheard, unheard, h.history]

end Pool

namespace Exchange

theorem call?_unheard (e : Exchange) : e.unheard.call? = e.call? := by
  rcases e with ⟨_ | _ | _ | _ | _ | _, _⟩ <;> rfl

theorem audit?_unheard (e : Exchange) : e.unheard.audit? = e.audit? := by
  rcases e with ⟨_ | _ | _ | _ | _ | _, _⟩ <;> rfl

end Exchange

namespace Ledger

variable {ι : Type} [DecidableEq ι]

/-- Nobody but the audit can tell the ledgers apart. -/
structure Alike (x y : Ledger ι) : Prop where
  answers : x.rest = y.rest
  store : x.store = y.store
  /-- What the accounts service was asked, in order. -/
  calls : x.gather Exchange.call? = y.gather Exchange.call?
  /-- What the audit was handed, in order. -/
  records : x.gather Exchange.audit? = y.gather Exchange.audit?

/-- **The trail of postings.**  When all postings have ended, whatever the accounts service and the
audit have answered and whichever writes have failed, the records that were handed to the audit are
one for each payment that was written, one for each granted hold whose payment was not, one for each
journal of a top-up and one for each journal of given lines; each says what it is about and who
asked for it, and that of a hold whether it was given back.  Had the audit answered otherwise,
nobody else could tell. -/
theorem audited {m : Memory} {f : Bool} {jobs : ι → Job} {ms : List (Move ι)}
    (postings : ∀ i, (jobs i).IsPosting)
    (ended : ∀ i, ∃ a, ((start m f jobs).after ms).rest i = .done a) :
    Audited m jobs ((start m f jobs).after ms) ∧
      ∀ ms', List.Forall₂ Move.SameButAudit ms ms' →
        Alike ((start m f jobs).after ms) ((start m f jobs).after ms') := by
  refine ⟨audited_of_ended postings ended, fun ms' hms => ?_⟩
  have same : ((start m f jobs).after ms).SameButAudit ((start m f jobs).after ms') :=
    Pool.sameButAudit_after hms ⟨rfl, rfl, rfl⟩ fun i => Job.heedless (postings i)
  exact ⟨same.rest, same.store, same.gather_eq Exchange.call?_unheard,
    same.gather_eq Exchange.audit?_unheard⟩

/-- **The trail of the race**: the payment that was written, and the hold of the other one, which
was given back although its payment is answered.  An audit that is down changes nothing. -/
theorem audited_race :
    (race.trail "payments.post").map (fun a => (a.1, a.2.entityId)) =
      [(true, (Uuid.ofNat 1).toText)] ∧
    (race.trail "payments.post.failed").map (fun a => (a.1, a.2.entityId)) =
      [(false, (Uuid.ofNat 11).toText)] ∧
    Audited .empty (fun _ => .post raceRequest) race ∧
    Alike race ((start .empty false fun _ => .post raceRequest).after
      (raceMoves.map (Move.withAudit (.error ⟨"down"⟩)))) := by
  have answers : ∀ m ∈ raceMoves, m.SameButAudit (m.withAudit (.error ⟨"down"⟩)) := by
    simp only [raceMoves, turns, List.forall_mem_append, List.forall_mem_map]
    exact ⟨⟨⟨fun id _ => .turn _ _ rfl, fun id _ => .turn _ _ rfl⟩, fun id _ => .turn _ _ rfl⟩,
      fun id _ => .turn _ _ rfl⟩
  obtain ⟨trail, alike⟩ := @audited Bool _ .empty false (fun _ => .post raceRequest) raceMoves
    (fun _ => trivial) fun b => ⟨_, rest_race b⟩
  refine ⟨by decide +kernel, by decide +kernel, trail, alike _ ?_⟩
  exact List.forall₂_map_right_iff.2 (List.forall₂_same.2 answers)

end Ledger

end DoubleEntry
