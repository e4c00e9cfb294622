import DoubleEntry.Duration

/-!
# Errors

Each layer has its own errors: the rules of the domain (`DomainError`), the store (`StoreError`),
the accounts service (`GatewayError`), the event relay (`PublishError`), and what a service answers
(`ServiceError`). An error names its cause; `message` is its wording. Errors of the lower layers
turn into those of a service by `DomainError.toService`, `StoreError.toService` and
`GatewayError.toService`.

## Main definitions

* `Complaint`, `AmountFault`, `LineFault`: the causes of refused input.
* `DomainError`, `StoreError`, `GatewayError`, `PublishError`, `AuditError`, `ServiceError`.
-/

namespace DoubleEntry

/-- Why a field or a request is refused. -/
inductive Complaint where
  | required (field : String)
  | controlCharacters (field : String)
  | tooLong (field : String)
  | malformed (field : String)
  | notUuid (field : String)
  | notCurrency
  | sameAccounts
  | outOfRange (field : String)
  | windowReversed
  | windowTooLarge (days : Int)
  | pageTooLarge (most : Nat)
  | tooManyLines (most : Nat)
  | unknownPaymentStatus (raw : String)
  | unknownJournalStatus (raw : String)
  | unreadable (what raw : String)
  | other (text : String)
deriving DecidableEq

/-- The wording of a complaint. -/
def Complaint.message : Complaint → String
  | required field => field ++ " is required"
  | controlCharacters field => field ++ " contains invalid characters"
  | tooLong field => field ++ " too long"
  | malformed field => field ++ " invalid"
  | notUuid field => field ++ " must be a UUID"
  | notCurrency => "currency must be ISO-4217 (e.g., USD)"
  | sameAccounts => "source_account_id must be different from destination_account_id"
  | outOfRange field => field ++ " out of range"
  | windowReversed => "to must be >= from"
  | windowTooLarge days => "time range too large (max " ++ toString days ++ " days)"
  | pageTooLarge most => "size max " ++ toString most
  | tooManyLines most => "too many lines (max " ++ toString most ++ ")"
  | unknownPaymentStatus raw => "unknown payment status: " ++ raw
  | unknownJournalStatus raw => "unknown journal status: " ++ raw
  | unreadable what raw => "bad " ++ what ++ " " ++ raw
  | other text => text

/-- Why an amount is refused. -/
inductive AmountFault where
  | notPositive (field : String)
  | notDecimal (field : String)
  | outOfRange (field : String)
  | other (text : String)
deriving DecidableEq

/-- The wording for a refused amount. -/
def AmountFault.message : AmountFault → String
  | notPositive field => field ++ " must be positive"
  | notDecimal field => field ++ " must be a decimal string (max 20,6)"
  | outOfRange field => field ++ " out of range"
  | other text => text

/-- Why the lines of a journal are refused. -/
inductive LineFault where
  | tooFew
  | negative (index : Nat)
  | notOneSided (index : Nat)
  | other (text : String)
deriving DecidableEq

/-- The wording for refused lines. -/
def LineFault.message : LineFault → String
  | tooFew => "a journal needs at least two lines"
  | negative index => "line " ++ toString index ++ " is negative"
  | notOneSided index =>
    "line " ++ toString index ++ " must carry exactly one of debit or credit"
  | other text => text

/-- A broken rule of the domain. -/
inductive DomainError where
  | validation (c : Complaint)
  | invalidCurrency (raw : String)
  | invalidAmount (f : AmountFault)
  | unbalanced (debit credit : Decimal)
  | invalidLine (f : LineFault)
  | unknownGlAccount (code : String)
  | keyReused (key operation : String)
  | serialization (text : String)
deriving DecidableEq

/-- The wording of a domain error. -/
def DomainError.message : DomainError → String
  | validation c => "Validation error: " ++ c.message
  | invalidCurrency raw => "Invalid currency: " ++ raw
  | invalidAmount f => "Invalid amount: " ++ f.message
  | unbalanced debit credit =>
    "Unbalanced journal: debit " ++ debit.toText ++ " != credit " ++ credit.toText
  | invalidLine f => "Invalid journal line: " ++ f.message
  | unknownGlAccount code => "Unknown GL account: " ++ code
  | keyReused key operation => "Idempotency key " ++ key ++ " already used for " ++ operation
  | serialization text => "Serialization error: " ++ text

/-- The name of the kind of a domain error. -/
def DomainError.kind : DomainError → String
  | validation _ => "Validation"
  | invalidCurrency _ => "InvalidCurrency"
  | invalidAmount _ => "InvalidAmount"
  | unbalanced _ _ => "Unbalanced"
  | invalidLine _ => "InvalidLine"
  | unknownGlAccount _ => "UnknownGlAccount"
  | keyReused _ _ => "IdempotencyKeyReused"
  | serialization _ => "Serialization"

/-- A failure of the store. -/
inductive StoreError where
  | domain (e : DomainError)
  | database (text : String)
  | transaction (text : String)
  | notFound
  | conflict (text : String)
deriving DecidableEq

/-- The wording of a store error. -/
def StoreError.message : StoreError → String
  | domain e => e.message
  | database text => "Database error: " ++ text
  | transaction text => "Transaction error: " ++ text
  | notFound => "Entity not found"
  | conflict text => "Conflict: " ++ text

/-- The name of the kind of a store error. -/
def StoreError.kind : StoreError → String
  | domain e => e.kind
  | database _ => "Database"
  | transaction _ => "Transaction"
  | notFound => "NotFound"
  | conflict _ => "Conflict"

/-- A failure of a call to the accounts service. -/
inductive GatewayError where
  | unavailable (text : String)
  | timeout (nanos : Nat)
  | circuitOpen
  | transport (text : String)
deriving DecidableEq

/-- The wording of a gateway error. -/
def GatewayError.message : GatewayError → String
  | unavailable text => "accounts service unavailable: " ++ text
  | timeout nanos => "accounts call timed out after " ++ spanText nanos
  | circuitOpen => "accounts circuit breaker is open"
  | transport text => "accounts transport error: " ++ text

/-- The name of the kind of a gateway error. -/
def GatewayError.kind : GatewayError → String
  | unavailable _ => "Unavailable"
  | timeout _ => "Timeout"
  | circuitOpen => "CircuitOpen"
  | transport _ => "Transport"

/-- No accounts service is there to be called. -/
def GatewayError.notConfigured : GatewayError := .unavailable "accounts service not configured"

/-- A failure to publish an event. -/
inductive PublishError where
  | transport (text : String)
  | rejected (status : Nat) (text : String)
  | serialization (text : String)
deriving DecidableEq

/-- The wording of a publish error. -/
def PublishError.message : PublishError → String
  | transport text => "publish transport error: " ++ text
  | rejected status text => "publish rejected with status " ++ toString status ++ ": " ++ text
  | serialization text => "publish serialization error: " ++ text

/-- The name of the kind of a publish error. -/
def PublishError.kind : PublishError → String
  | transport _ => "Transport"
  | rejected _ _ => "Rejected"
  | serialization _ => "Serialization"

/-- A failure to record an audit entry. -/
structure AuditError where
  text : String
deriving DecidableEq

/-- The wording of an audit error. -/
def AuditError.message (e : AuditError) : String := "audit error: " ++ e.text

/-- What a service answers instead of a result. -/
inductive ServiceError where
  | badRequest (text : String)
  | rejected (text : String)
  | notFound (text : String)
  | conflict (text : String)
  | unavailable (text : String)
  | internal (text : String)
deriving DecidableEq

namespace ServiceError

/-- The wording of a service error. -/
def message : ServiceError → String
  | badRequest text => "Bad request: " ++ text
  | rejected text => "Rejected: " ++ text
  | notFound text => "Not found: " ++ text
  | conflict text => "Conflict: " ++ text
  | unavailable text => "Unavailable: " ++ text
  | internal text => "Internal error: " ++ text

/-- The name of the kind of a service error. -/
def kind : ServiceError → String
  | badRequest _ => "BadRequest"
  | rejected _ => "Rejected"
  | notFound _ => "NotFound"
  | conflict _ => "Conflict"
  | unavailable _ => "Unavailable"
  | internal _ => "Internal"

/-- The wording without the kind in front. -/
def text : ServiceError → String
  | badRequest text | rejected text | notFound text => text
  | conflict text | unavailable text | internal text => text

/-- An answer to the caller's doing, not a failure of the service. -/
def isExpected : ServiceError → Bool
  | badRequest _ | rejected _ | notFound _ | conflict _ => true
  | unavailable _ | internal _ => false

end ServiceError

/-- What a service answers to a broken rule: a reused key is a conflict, an unreadable record an
internal failure, all else the caller's doing. -/
def DomainError.toService (e : DomainError) : ServiceError :=
  match e with
  | .keyReused _ _ => .conflict e.message
  | .serialization text => .internal text
  | _ => .badRequest e.message

/-- What a service answers to a failure of the store. -/
def StoreError.toService : StoreError → ServiceError
  | domain e => e.toService
  | notFound => .notFound "Resource not found"
  | database text => .internal text
  | transaction text => .internal text
  | conflict text => .conflict text

/-- What a service answers to a failure of the accounts service. -/
def GatewayError.toService (e : GatewayError) : ServiceError := .unavailable e.message

end DoubleEntry
