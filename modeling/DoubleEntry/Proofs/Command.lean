import DoubleEntry.Command.Basic
import Mathlib.Tactic.SplitIfs

/-!
# Commands and their requests

A request is a command if each of its fields is read, and the command says what they say.

## Main definitions

* `PaymentCommand.Reads`, `CreditCommand.Reads`, `ManualLine.Reads`, `ManualCommand.Reads`: the
  fields are read, and say what the command says.

## Main results

* `PaymentCommand.ofRequest_eq_ok_iff` and the like: a command is that of a request if it says what
  the fields say.
* `PaymentCommand.key_of_ofRequest`, `CreditCommand.key_of_ofRequest`: the key of a command is that
  of the request, without the blanks around it.
-/

namespace DoubleEntry

theorem exists_of_bind_eq_ok {ε α β : Type} {x : Except ε α} {f : α → Except ε β} {b : β}
    (h : x >>= f = .ok b) : ∃ a, x = .ok a ∧ f a = .ok b := by
  rcases x with e | a
  · cases h
  · exact ⟨a, rfl, h⟩

theorem bind_eq_ok_iff {ε α β : Type} {x : Except ε α} {f : α → Except ε β} {b : β} :
    x >>= f = .ok b ↔ ∃ a, x = .ok a ∧ f a = .ok b := by
  refine ⟨exists_of_bind_eq_ok, ?_⟩
  rintro ⟨a, rfl, h⟩
  exact h

theorem map_eq_ok_iff {ε α β : Type} {x : Except ε α} {f : α → β} {b : β} :
    f <$> x = .ok b ↔ ∃ a, x = .ok a ∧ f a = b := by
  cases x with
  | error e => simp [Functor.map, Except.map]
  | ok a => simp [Functor.map, Except.map]

theorem Field.required_eq_ok {raw field s : String} {most : Nat}
    (h : Field.required raw field most = .ok s) : s = trim raw := by
  simp only [required, refuse] at h
  split_ifs at h
  exact (Except.ok.inj h).symm

theorem Field.required_eq_ok_of {raw field : String} {most : Nat} (hne : trim raw ≠ "")
    (hshort : (trim raw).toList.length ≤ most)
    (hchars : ∀ c ∈ (trim raw).toList, isControl c = false) :
    Field.required raw field most = .ok (trim raw) := by
  have hnil : (trim raw).toList.isEmpty = false := by
    simpa [List.isEmpty_eq_false_iff] using hne
  have hcontrol : (trim raw).toList.any isControl = false :=
    List.any_eq_false.2 fun c hc => by simp [hchars c hc]
  have hlength : ¬ most < (trim raw).toList.length := Nat.not_lt.2 hshort
  simp only [required, hnil, hcontrol, Bool.false_eq_true, if_false, if_neg hlength]

theorem Field.key_eq_ok {raw s : String} (h : Field.key raw = .ok s) : s = trim raw := by
  obtain ⟨t, ht, h⟩ := exists_of_bind_eq_ok h
  split_ifs at h
  · rw [← Except.ok.inj h, Field.required_eq_ok ht]
  · cases h

theorem Field.actor_eq_ok {raw s : String} (h : Field.actor raw = .ok s) : s = trim raw := by
  obtain ⟨t, ht, h⟩ := exists_of_bind_eq_ok h
  split_ifs at h
  · rw [← Except.ok.inj h, Field.required_eq_ok ht]
  · cases h

/-! ### Payments -/

namespace PaymentCommand

variable {r : PaymentRequest} {c : PaymentCommand}

/-- The command says what the fields of the request say. -/
structure Reads (r : PaymentRequest) (c : PaymentCommand) : Prop where
  key : Field.key r.idempotencyKey = .ok c.key
  source : Field.account r.source "source_account_id" = .ok c.source
  destination : Field.account r.destination "destination_account_id" = .ok c.destination
  apart : c.source ≠ c.destination
  customer : Option.map Uuid.toText <$> Field.optionalAccount r.customerId "customer_id" =
    .ok c.customerId
  currency : Field.currency r.currency = .ok c.currency
  amount : Field.amount r.amount "amount" = .ok c.amount
  actor : Field.actor r.initiatedBy = .ok c.initiatedBy

theorem ofRequest_eq_ok_iff : ofRequest r = .ok c ↔ Reads r c := by
  constructor
  · intro h
    obtain ⟨key, hkey, h⟩ := exists_of_bind_eq_ok h
    obtain ⟨source, hsource, h⟩ := exists_of_bind_eq_ok h
    obtain ⟨destination, hdestination, h⟩ := exists_of_bind_eq_ok h
    split_ifs at h with hsame
    · cases h
    · obtain ⟨customer, hcustomer, h⟩ := exists_of_bind_eq_ok h
      obtain ⟨currency, hcurrency, h⟩ := exists_of_bind_eq_ok h
      obtain ⟨amount, hamount, h⟩ := exists_of_bind_eq_ok h
      obtain ⟨actor, hactor, h⟩ := exists_of_bind_eq_ok h
      cases h
      exact ⟨hkey, hsource, hdestination, hsame, map_eq_ok_iff.2 ⟨customer, hcustomer, rfl⟩,
        hcurrency, hamount, hactor⟩
  · intro h
    obtain ⟨customer, hcustomer, hid⟩ := map_eq_ok_iff.1 h.customer
    simp only [ofRequest, h.key, h.source, h.destination, if_neg h.apart, hcustomer, h.currency,
      h.amount, h.actor, hid, bind, Except.bind]
    rfl

theorem key_of_ofRequest (h : ofRequest r = .ok c) : c.key = trim r.idempotencyKey :=
  Field.key_eq_ok (ofRequest_eq_ok_iff.1 h).key

theorem actor_of_ofRequest (h : ofRequest r = .ok c) : c.initiatedBy = trim r.initiatedBy :=
  Field.actor_eq_ok (ofRequest_eq_ok_iff.1 h).actor

end PaymentCommand

/-! ### Top-ups -/

namespace CreditCommand

variable {r : CreditRequest} {c : CreditCommand}

/-- The command says what the fields of the request say; reason and customer have their form. -/
structure Reads (r : CreditRequest) (c : CreditCommand) : Prop where
  key : Field.key r.idempotencyKey = .ok c.key
  account : Field.account r.account "account_id" = .ok c.account
  currency : Field.currency r.currency = .ok c.currency
  amount : Field.amount r.amount "amount" = .ok c.amount
  actor : Field.actor r.initiatedBy = .ok c.initiatedBy
  externalRef : (Option.getD · "") <$> Field.externalRef r.externalRef = .ok c.externalRef
  reason : ∃ reason, Field.reason r.reason = .ok reason
  customer : ∃ customer, Field.optionalAccount r.customerId "customer_id" = .ok customer

theorem ofRequest_eq_ok_iff : ofRequest r = .ok c ↔ Reads r c := by
  constructor
  · intro h
    obtain ⟨key, hkey, h⟩ := exists_of_bind_eq_ok h
    obtain ⟨account, haccount, h⟩ := exists_of_bind_eq_ok h
    obtain ⟨currency, hcurrency, h⟩ := exists_of_bind_eq_ok h
    obtain ⟨amount, hamount, h⟩ := exists_of_bind_eq_ok h
    obtain ⟨actor, hactor, h⟩ := exists_of_bind_eq_ok h
    obtain ⟨ref, href, h⟩ := exists_of_bind_eq_ok h
    obtain ⟨reason, hreason, h⟩ := exists_of_bind_eq_ok h
    obtain ⟨customer, hcustomer, h⟩ := exists_of_bind_eq_ok h
    cases h
    exact ⟨hkey, haccount, hcurrency, hamount, hactor, map_eq_ok_iff.2 ⟨ref, href, rfl⟩,
      ⟨reason, hreason⟩, ⟨customer, hcustomer⟩⟩
  · intro h
    obtain ⟨ref, href, hget⟩ := map_eq_ok_iff.1 h.externalRef
    obtain ⟨reason, hreason⟩ := h.reason
    obtain ⟨customer, hcustomer⟩ := h.customer
    simp only [ofRequest, h.key, h.account, h.currency, h.amount, h.actor, href, hreason,
      hcustomer, hget, bind, Except.bind]
    rfl

theorem key_of_ofRequest (h : ofRequest r = .ok c) : c.key = trim r.idempotencyKey :=
  Field.key_eq_ok (ofRequest_eq_ok_iff.1 h).key

theorem actor_of_ofRequest (h : ofRequest r = .ok c) : c.initiatedBy = trim r.initiatedBy :=
  Field.actor_eq_ok (ofRequest_eq_ok_iff.1 h).actor

end CreditCommand

/-! ### Journals of given lines -/

namespace ManualLine

variable {index : Nat} {r : ManualLineRequest} {l : ManualLine}

/-- The line says what the fields of the request at an index say. -/
structure Reads (index : Nat) (r : ManualLineRequest) (l : ManualLine) : Prop where
  account : Field.required r.glAccountCode "gl_account_code" 64 >>= GlAccount.ofCode =
    .ok l.glAccount
  counterparty : Field.optionalAccount r.counterpartyRef "counterparty_ref" = .ok l.counterparty
  debit : side index "debit" r.debit = .ok l.debit
  credit : side index "credit" r.credit = .ok l.credit

theorem ofRequest_eq_ok_iff : ofRequest index r = .ok l ↔ Reads index r l := by
  constructor
  · intro h
    obtain ⟨code, hcode, h⟩ := exists_of_bind_eq_ok h
    obtain ⟨counterparty, hcounterparty, h⟩ := exists_of_bind_eq_ok h
    obtain ⟨account, haccount, h⟩ := exists_of_bind_eq_ok h
    obtain ⟨debit, hdebit, h⟩ := exists_of_bind_eq_ok h
    obtain ⟨credit, hcredit, h⟩ := exists_of_bind_eq_ok h
    cases h
    exact ⟨bind_eq_ok_iff.2 ⟨code, hcode, haccount⟩, hcounterparty, hdebit, hcredit⟩
  · intro h
    obtain ⟨code, hcode, haccount⟩ := bind_eq_ok_iff.1 h.account
    simp only [ofRequest, hcode, haccount, h.counterparty, h.debit, h.credit, bind, Except.bind]
    rfl

end ManualLine

namespace ManualCommand

variable {r : ManualRequest} {c : ManualCommand}

/-- The command says what the fields and the lines of the request say. -/
structure Reads (r : ManualRequest) (c : ManualCommand) : Prop where
  few : r.lines.length ≤ maxLines
  lines : ManualLine.ofRequests 0 r.lines = .ok c.lines
  currency : Field.currency r.currency = .ok c.currency
  actor : Field.actor r.initiatedBy = .ok c.initiatedBy
  externalRef : (Option.getD · "") <$> Field.externalRef r.externalRef = .ok c.externalRef

theorem ofRequest_eq_ok_iff : ofRequest r = .ok c ↔ Reads r c := by
  constructor
  · intro h
    unfold ofRequest at h
    split_ifs at h with hmany
    · cases h
    · obtain ⟨lines, hlines, h⟩ := exists_of_bind_eq_ok h
      obtain ⟨currency, hcurrency, h⟩ := exists_of_bind_eq_ok h
      obtain ⟨actor, hactor, h⟩ := exists_of_bind_eq_ok h
      obtain ⟨ref, href, h⟩ := exists_of_bind_eq_ok h
      cases h
      exact ⟨Nat.not_lt.1 hmany, hlines, hcurrency, hactor, map_eq_ok_iff.2 ⟨ref, href, rfl⟩⟩
  · intro h
    obtain ⟨ref, href, hget⟩ := map_eq_ok_iff.1 h.externalRef
    simp only [ofRequest, if_neg (Nat.not_lt.2 h.few), h.lines, h.currency, h.actor, href, hget,
      bind, Except.bind]
    rfl

theorem actor_of_ofRequest (h : ofRequest r = .ok c) : c.initiatedBy = trim r.initiatedBy :=
  Field.actor_eq_ok (ofRequest_eq_ok_iff.1 h).actor

end ManualCommand

end DoubleEntry
