import DoubleEntry.Proofs.SpelledFields

/-!
# Requests in other spellings

A command does not tell how its request was spelled.  Written as a request again it is read as
itself, and requests that are the same but for the blanks around their fields, the spellings of
identifiers and the case of their currency are read as the same command, or refused for the same
reason.  So no spelling hides that a payment names one account twice.

## Main definitions

* `PaymentRequest.Alike`, `CreditRequest.Alike`, `ManualRequest.Alike`: requests in two spellings.
* `PaymentCommand.toRequest`, `CreditCommand.toRequest`, `ManualCommand.toRequest`: the request that
  writes the fields of a command.
* `ReadsSpellings`: how requests of a kind are read.

## Main results

* `requests_canonical`: payments, top-ups and journals are read like this.
-/

namespace DoubleEntry

open DoubleEntry.Field (given SameAccount SameCurrency)

/-! ### Requests in two spellings -/

/-- The requests are the same but for their spelling. -/
structure PaymentRequest.Alike (r r' : PaymentRequest) : Prop where
  idempotencyKey : trim r.idempotencyKey = trim r'.idempotencyKey
  source : SameAccount r.source r'.source
  destination : SameAccount r.destination r'.destination
  currency : SameCurrency r.currency r'.currency
  amount : trim r.amount = trim r'.amount
  initiatedBy : trim r.initiatedBy = trim r'.initiatedBy
  customerId : Option.Rel SameAccount (given r.customerId) (given r'.customerId)

/-- The requests are the same but for their spelling. -/
structure CreditRequest.Alike (r r' : CreditRequest) : Prop where
  idempotencyKey : trim r.idempotencyKey = trim r'.idempotencyKey
  account : SameAccount r.account r'.account
  currency : SameCurrency r.currency r'.currency
  amount : trim r.amount = trim r'.amount
  initiatedBy : trim r.initiatedBy = trim r'.initiatedBy
  externalRef : given r.externalRef = given r'.externalRef
  reason : given r.reason = given r'.reason
  customerId : Option.Rel SameAccount (given r.customerId) (given r'.customerId)

/-- The lines are the same but for their spelling. -/
structure ManualLineRequest.Alike (l l' : ManualLineRequest) : Prop where
  glAccountCode : trim l.glAccountCode = trim l'.glAccountCode
  counterpartyRef : Option.Rel SameAccount (given l.counterpartyRef) (given l'.counterpartyRef)
  debit : given l.debit = given l'.debit
  credit : given l.credit = given l'.credit

/-- The requests are the same but for their spelling. -/
structure ManualRequest.Alike (r r' : ManualRequest) : Prop where
  currency : SameCurrency r.currency r'.currency
  initiatedBy : trim r.initiatedBy = trim r'.initiatedBy
  externalRef : given r.externalRef = given r'.externalRef
  lines : List.Forall₂ ManualLineRequest.Alike r.lines r'.lines

/-! ### Commands as requests -/

/-- The request that writes the fields of a command. -/
def PaymentCommand.toRequest (c : PaymentCommand) : PaymentRequest where
  idempotencyKey := c.key
  source := c.source.toText
  destination := c.destination.toText
  currency := c.currency.code
  amount := c.amount.toText
  initiatedBy := c.initiatedBy
  customerId := c.customerId

/-- The request that writes the fields of a command. -/
def CreditCommand.toRequest (c : CreditCommand) : CreditRequest where
  idempotencyKey := c.key
  account := c.account.toText
  currency := c.currency.code
  amount := c.amount.toText
  initiatedBy := c.initiatedBy
  externalRef := Field.written c.externalRef
  reason := none
  customerId := none

/-- The line that writes the fields of a line. -/
def ManualLine.toRequest (l : ManualLine) : ManualLineRequest where
  glAccountCode := l.glAccount.code
  counterpartyRef := l.counterparty.map Uuid.toText
  debit := some l.debit.toText
  credit := some l.credit.toText

/-- The request that writes the fields of a command. -/
def ManualCommand.toRequest (c : ManualCommand) : ManualRequest where
  currency := c.currency.code
  initiatedBy := c.initiatedBy
  externalRef := Field.written c.externalRef
  lines := c.lines.map ManualLine.toRequest

/-- How requests of a kind are read: a command is read again from the request that writes it, and
requests in two spellings are answered the same. -/
structure ReadsSpellings {Request Command : Type} (read : Request → Except DomainError Command)
    (write : Command → Request) (alike : Request → Request → Prop) : Prop where
  read_write : ∀ r c, read r = .ok c → read (write c) = .ok c
  congr : ∀ r r', alike r r' → read r = read r'

/-! ### Payments -/

namespace PaymentCommand

theorem ofRequest_toRequest {r : PaymentRequest} {c : PaymentCommand} (h : ofRequest r = .ok c) :
    ofRequest c.toRequest = .ok c := by
  have hreads := ofRequest_eq_ok_iff.1 h
  obtain ⟨customer, -, hid⟩ := map_eq_ok_iff.1 hreads.customer
  refine ofRequest_eq_ok_iff.2 ⟨Field.key_of_key hreads.key, Field.account_toText ..,
    Field.account_toText .., hreads.apart, ?_, Field.currency_code ..,
    Field.amount_toText hreads.amount, Field.actor_of_actor hreads.actor⟩
  exact map_eq_ok_iff.2 ⟨customer, by rw [toRequest, ← hid, Field.optionalAccount_toText], hid⟩

theorem ofRequest_congr {r r' : PaymentRequest} (h : r.Alike r') : ofRequest r = ofRequest r' := by
  simp only [ofRequest, Field.key_congr h.idempotencyKey, Field.account_congr h.source,
    Field.account_congr h.destination, Field.optionalAccount_congr h.customerId,
    Field.currency_congr h.currency, Field.amount_congr h.amount, Field.actor_congr h.initiatedBy]

theorem ofRequest_of_sameAccount {r : PaymentRequest} (h : SameAccount r.source r.destination) :
    ∃ c, ofRequest r = .error (.validation c) := by
  obtain ⟨key, hkey⟩ | ⟨c, hkey⟩ := Field.key_cases r.idempotencyKey
  · obtain ⟨u, hsource⟩ | ⟨c, hsource⟩ := Field.account_cases r.source "source_account_id"
    · have hdestination : Field.account r.destination "destination_account_id" = .ok u := by
        rw [← Field.account_congr h, Field.account_eq_ok_iff]
        exact Field.account_eq_ok_iff.1 hsource
      refine ⟨.sameAccounts, ?_⟩
      simp only [ofRequest, hkey, hsource, hdestination, bind, Except.bind, if_true]
      rfl
    · exact ⟨c, by simp only [ofRequest, hkey, hsource, bind, Except.bind]⟩
  · exact ⟨c, by simp only [ofRequest, hkey, bind, Except.bind]⟩

end PaymentCommand

/-! ### Top-ups -/

namespace CreditCommand

theorem ofRequest_toRequest {r : CreditRequest} {c : CreditCommand} (h : ofRequest r = .ok c) :
    ofRequest c.toRequest = .ok c := by
  have hreads := ofRequest_eq_ok_iff.1 h
  exact ofRequest_eq_ok_iff.2 ⟨Field.key_of_key hreads.key, Field.account_toText ..,
    Field.currency_code .., Field.amount_toText hreads.amount,
    Field.actor_of_actor hreads.actor, Field.externalRef_written hreads.externalRef,
    ⟨none, rfl⟩, ⟨none, rfl⟩⟩

theorem ofRequest_congr {r r' : CreditRequest} (h : r.Alike r') : ofRequest r = ofRequest r' := by
  simp only [ofRequest, Field.key_congr h.idempotencyKey, Field.account_congr h.account,
    Field.currency_congr h.currency, Field.amount_congr h.amount, Field.actor_congr h.initiatedBy,
    Field.externalRef_congr h.externalRef, Field.reason_congr h.reason,
    Field.optionalAccount_congr h.customerId]

end CreditCommand

/-! ### Journals of given lines -/

namespace ManualLine

theorem ofRequest_toRequest {index : Nat} {r : ManualLineRequest} {l : ManualLine}
    (h : ofRequest index r = .ok l) : ofRequest index l.toRequest = .ok l := by
  have hreads := ofRequest_eq_ok_iff.1 h
  have hcode : trim l.glAccount.code = l.glAccount.code := by cases l.glAccount <;> decide
  exact ofRequest_eq_ok_iff.2 ⟨(GlAccount.ofCode_eq_ok_iff "gl_account_code").2 hcode,
    Field.optionalAccount_toText .., Field.side_toText hreads.debit,
    Field.side_toText hreads.credit⟩

theorem ofRequest_congr {index : Nat} {r r' : ManualLineRequest} (h : r.Alike r') :
    ofRequest index r = ofRequest index r' := by
  simp only [ofRequest, Field.required_congr h.glAccountCode,
    Field.optionalAccount_congr h.counterpartyRef, Field.side_congr h.debit,
    Field.side_congr h.credit]

theorem ofRequests_toRequest {index : Nat} {rs : List ManualLineRequest} {ls : List ManualLine}
    (h : ofRequests index rs = .ok ls) :
    ls.length = rs.length ∧ ofRequests index (ls.map toRequest) = .ok ls := by
  induction rs generalizing index ls with
  | nil =>
    cases h
    exact ⟨rfl, rfl⟩
  | cons r rs ih =>
    obtain ⟨l, hl, h⟩ := exists_of_bind_eq_ok h
    obtain ⟨ls', hls, h⟩ := exists_of_bind_eq_ok h
    cases h
    obtain ⟨hlength, hread⟩ := ih hls
    refine ⟨congrArg (· + 1) hlength, ?_⟩
    simp only [List.map_cons, ofRequests, ofRequest_toRequest hl, hread, bind, Except.bind]
    rfl

theorem ofRequests_congr {index : Nat} {rs rs' : List ManualLineRequest}
    (h : List.Forall₂ ManualLineRequest.Alike rs rs') :
    ofRequests index rs = ofRequests index rs' := by
  induction h generalizing index with
  | nil => rfl
  | cons hline _ ih => simp only [ofRequests, ofRequest_congr hline, ih]

end ManualLine

namespace ManualCommand

theorem ofRequest_toRequest {r : ManualRequest} {c : ManualCommand} (h : ofRequest r = .ok c) :
    ofRequest c.toRequest = .ok c := by
  have hreads := ofRequest_eq_ok_iff.1 h
  obtain ⟨hlength, hlines⟩ := ManualLine.ofRequests_toRequest hreads.lines
  have hfew : (c.lines.map ManualLine.toRequest).length ≤ maxLines := by
    rw [List.length_map, hlength]
    exact hreads.few
  exact ofRequest_eq_ok_iff.2 ⟨hfew, hlines, Field.currency_code ..,
    Field.actor_of_actor hreads.actor, Field.externalRef_written hreads.externalRef⟩

theorem ofRequest_congr {r r' : ManualRequest} (h : r.Alike r') : ofRequest r = ofRequest r' := by
  simp only [ofRequest, h.lines.length_eq, ManualLine.ofRequests_congr h.lines,
    Field.currency_congr h.currency, Field.actor_congr h.initiatedBy,
    Field.externalRef_congr h.externalRef]

end ManualCommand

/-- **Requests are read whatever their spelling is**, and a payment between two spellings of one
account is refused. -/
theorem requests_canonical :
    ReadsSpellings PaymentCommand.ofRequest PaymentCommand.toRequest PaymentRequest.Alike ∧
    ReadsSpellings CreditCommand.ofRequest CreditCommand.toRequest CreditRequest.Alike ∧
    ReadsSpellings ManualCommand.ofRequest ManualCommand.toRequest ManualRequest.Alike ∧
    ∀ r : PaymentRequest, SameAccount r.source r.destination →
      ∃ c, PaymentCommand.ofRequest r = .error (.validation c) :=
  ⟨⟨fun _ _ => PaymentCommand.ofRequest_toRequest, fun _ _ => PaymentCommand.ofRequest_congr⟩,
    ⟨fun _ _ => CreditCommand.ofRequest_toRequest, fun _ _ => CreditCommand.ofRequest_congr⟩,
    ⟨fun _ _ => ManualCommand.ofRequest_toRequest, fun _ _ => ManualCommand.ofRequest_congr⟩,
    fun _ => PaymentCommand.ofRequest_of_sameAccount⟩

/-! Requests of each kind in odd spellings, and the commands that they are read as. -/

/-- Who pays. -/
def payer : AccountId := .ofNat 0x67e5504410b1426f9247bb680e5fe0c8

/-- Who is paid. -/
def payee : AccountId := .ofNat 0xa1a2a3a4b1b2c1c2d1d2d3d4d5d6d7d8

/-- What is paid in. -/
def franc : Currency := ⟨"CHF", rfl, rfl⟩

/-- A payment from a name of a resource to an account in braces, its other fields among blanks. -/
def urnPayment : PaymentRequest where
  idempotencyKey := " payment-0001\t"
  source := "URN:UUID:67E55044-10b1-426F-9247-BB680E5FE0C8"
  destination := " \x7bA1a2a3a4-b1b2-c1c2-d1d2-d3d4d5d6d7d8\x7d"
  currency := "chf "
  amount := " 12.500"
  initiatedBy := "ops@bank\n"
  customerId := some " "

/-- The payment as it is read. -/
def urnPaymentCommand : PaymentCommand where
  key := "payment-0001"
  source := payer
  destination := payee
  currency := franc
  amount := ⟨false, 12500, 3, by decide, by decide⟩
  initiatedBy := "ops@bank"
  customerId := none

/-- A top-up of digits without hyphens, with a blank reference. -/
def simpleCredit : CreditRequest where
  idempotencyKey := "credit-0001"
  account := "A1A2A3A4B1B2C1C2D1D2D3D4D5D6D7D8"
  currency := "Chf"
  amount := "0.000001"
  initiatedBy := "ops@bank"
  externalRef := some "\u3000"
  reason := none
  customerId := none

/-- The top-up as it is read. -/
def simpleCreditCommand : CreditCommand where
  key := "credit-0001"
  account := payee
  currency := franc
  amount := ⟨false, 1, 6, by decide, by decide⟩
  initiatedBy := "ops@bank"
  externalRef := ""

/-- A journal of one line; whether it is balanced is not asked here. -/
def lineJournal : ManualRequest where
  currency := " cHF"
  initiatedBy := "ops@bank"
  externalRef := some " invoice#7 "
  lines := [⟨"GL_IN ", some "67E5504410B1426F9247BB680E5FE0C8", some " 5.0000", some "0"⟩]

/-- The journal as it is read. -/
def lineJournalCommand : ManualCommand where
  currency := franc
  initiatedBy := "ops@bank"
  externalRef := "invoice#7"
  lines := [⟨.incoming, some payer, ⟨false, 50000, 4, by decide, by decide⟩, .zero⟩]

/-- The requests are read again as they are written, in either spelling. -/
theorem requests_canonical_urn :
    (PaymentCommand.ofRequest urnPaymentCommand.toRequest = .ok urnPaymentCommand ∧
      PaymentCommand.ofRequest urnPayment =
        PaymentCommand.ofRequest urnPaymentCommand.toRequest) ∧
    (CreditCommand.ofRequest simpleCreditCommand.toRequest = .ok simpleCreditCommand ∧
      CreditCommand.ofRequest simpleCredit =
        CreditCommand.ofRequest simpleCreditCommand.toRequest) ∧
    (ManualCommand.ofRequest lineJournalCommand.toRequest = .ok lineJournalCommand ∧
      ManualCommand.ofRequest lineJournal =
        ManualCommand.ofRequest lineJournalCommand.toRequest) ∧
    ∃ c, PaymentCommand.ofRequest { urnPayment with destination := payer.toText } =
      .error (.validation c) := by
  obtain ⟨hpayment, hcredit, hjournal, hself⟩ := requests_canonical
  have hblank : given urnPayment.customerId = none := by decide +kernel
  have hpayer : SameAccount urnPayment.source payer.toText :=
    .spelled (u := payer) (by decide +kernel) (by decide +kernel)
  have hpayee : SameAccount urnPayment.destination payee.toText :=
    .spelled (u := payee) (by decide +kernel) (by decide +kernel)
  have hcounterparty : Option.Rel SameAccount (given (some "67E5504410B1426F9247BB680E5FE0C8"))
      (given (some payer.toText)) := by
    have hodd : given (some "67E5504410B1426F9247BB680E5FE0C8") =
        some "67E5504410B1426F9247BB680E5FE0C8" := by decide +kernel
    have hplain : given (some payer.toText) = some payer.toText := by decide +kernel
    rw [hodd, hplain]
    exact .some (.spelled (u := payer) (by decide +kernel) (by decide +kernel))
  have hcredited : SameAccount simpleCredit.account payee.toText :=
    .spelled (u := payee) (by decide +kernel) (by decide +kernel)
  refine ⟨⟨hpayment.read_write urnPayment _ (by decide +kernel), hpayment.congr _ _ ?_⟩,
    ⟨hcredit.read_write simpleCredit _ (by decide +kernel), hcredit.congr _ _ ?_⟩,
    ⟨hjournal.read_write lineJournal _ (by decide +kernel), hjournal.congr _ _ ?_⟩,
    hself _ hpayer⟩
  · exact ⟨by decide +kernel, hpayer, hpayee, by decide +kernel, by decide +kernel,
      by decide +kernel, hblank ▸ .none⟩
  · exact ⟨by decide +kernel, hcredited, by decide +kernel, by decide +kernel, by decide +kernel,
      by decide +kernel, by decide +kernel, .none⟩
  · refine ⟨by decide +kernel, by decide +kernel, by decide +kernel, .cons ?_ .nil⟩
    exact ⟨by decide +kernel, hcounterparty, by decide +kernel, by decide +kernel⟩

end DoubleEntry
