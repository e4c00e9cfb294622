import DoubleEntry.Accounts.Basic
import DoubleEntry.Error

/-!
# Calls to the accounts service

## Main definitions

* `AccountsCall`: what the accounts service is asked. `AccountsCall.Answer`: what it answers.
* `AccountsCall.path`, `AccountsCall.body`, `AccountsCall.key?`: how a call is written as a request.
* `AccountsCall.decoder`: how its answer is read. `AccountsCall.encode`: how it is shown.
-/

namespace DoubleEntry

/-- What the accounts service is asked. -/
inductive AccountsCall where
  /-- Whether a posting may be made. -/
  | validate (source destination : AccountId) (currency : Currency) (amount : Decimal)
  | reserve (h : HoldRequest)
  | release (h : HoldRequest)
  /-- What a statement shows of these customers. -/
  | summaries (accounts : List AccountId)
deriving DecidableEq

namespace AccountsCall

/-- What the accounts service answers. -/
def Answer : AccountsCall → Type
  | validate _ _ _ _ => ValidationOutcome
  | reserve _ | release _ => HoldOutcome
  | summaries _ => List AccountSummary

/-- The path of a call. -/
def path : AccountsCall → String
  | validate _ _ _ _ => "/internal/v1/accounts/validate"
  | reserve h => "/internal/v1/accounts/" ++ h.account.toText ++ "/holds"
  | release h =>
    "/internal/v1/accounts/" ++ h.account.toText ++ "/holds/" ++ h.holdId.toText ++ "/release"
  | summaries _ => "/internal/v1/accounts/summaries:batchGet"

/-- What a call carries. -/
def body : AccountsCall → Json
  | validate source destination currency amount => .obj [
    ("source_account_id", source.toJson),
    ("destination_account_id", destination.toJson),
    ("currency", currency.toJson),
    ("amount", amount.toJson)]
  | reserve h | release h => h.toJson
  | summaries accounts => .obj [("account_ids", .arr (accounts.map Uuid.toJson))]

/-- The key under which a call may be made again. -/
def key? : AccountsCall → Option String
  | reserve h | release h => some h.idempotencyKey
  | validate _ _ _ _ | summaries _ => none

/-- Reads the answer to a call. -/
def decoder : (c : AccountsCall) → Decoder c.Answer
  | validate _ _ _ _ => ValidationOutcome.decoder
  | reserve _ | release _ => HoldOutcome.decoder
  | summaries _ => Fields.decoder "BatchSummariesResponse" <|
    Fields.defaulted "accounts" (Decoder.list AccountSummary.decoder) []

/-- The answer to a call as a JSON value. -/
def encode : (c : AccountsCall) → c.Answer → Json
  | validate _ _ _ _ => ValidationOutcome.toJson
  | reserve _ | release _ => HoldOutcome.toJson
  | summaries _ => fun found => .arr (found.map AccountSummary.toJson)

end AccountsCall

end DoubleEntry
