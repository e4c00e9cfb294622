import DoubleEntry.Error
import DoubleEntry.Uuid

/-!
# The chart of accounts

Every line of a journal books on one of the four accounts of the general ledger. Each has a code,
by which it is written, and an identifier.

## Main definitions

* `GlAccount`: the accounts. `GlAccount.ofCode`: the account of a code.
-/

namespace DoubleEntry

/-- An account of the general ledger. -/
inductive GlAccount where
  /-- Money that leaves a customer by a payment. -/
  | outgoing
  /-- Money that reaches a customer by a payment. -/
  | incoming
  /-- The fund that top-ups are paid from. -/
  | systemFund
  /-- Cash that customers hold. -/
  | customerCash
deriving DecidableEq

namespace GlAccount

/-- The accounts in the order of the chart. -/
def all : List GlAccount := [outgoing, incoming, systemFund, customerCash]

/-- The code of an account. -/
def code : GlAccount → String
  | outgoing => "GL_OUT"
  | incoming => "GL_IN"
  | systemFund => "GL_SYSTEM_FUND"
  | customerCash => "GL_CUSTOMER_CASH"

/-- The identifier of an account. -/
def id : GlAccount → Uuid
  | outgoing => .ofNat 1
  | incoming => .ofNat 2
  | systemFund => .ofNat 3
  | customerCash => .ofNat 4

/-- The account of a code. -/
def ofCode (code : String) : Except DomainError GlAccount :=
  match all.find? fun a => a.code = code with
  | some a => .ok a
  | none => .error (.unknownGlAccount code)

/-- Codes and accounts. -/
def names : List (String × GlAccount) := all.map fun a => (a.code, a)

/-- The account as a JSON value. -/
def toJson (a : GlAccount) : Json := .str a.code

/-- Reads an account from its code. -/
def decoder : Decoder GlAccount := Decoder.variant names

theorem ofCode_code (a : GlAccount) : ofCode a.code = .ok a := by
  cases a <;> rfl

end GlAccount

instance : ToJson GlAccount := ⟨GlAccount.toJson⟩
instance : FromJson GlAccount := ⟨GlAccount.decoder⟩

end DoubleEntry
