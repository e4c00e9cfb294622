import DoubleEntry.Error
import DoubleEntry.Instant.Text
import DoubleEntry.Json.Codec
import DoubleEntry.Json.Printer

/-!
# Records of answered requests

The answer to a request with a key is kept as text. A later request with the key gets that answer
again if it asks for the same operation, and a refusal if it asks for another.

## Main definitions

* `IdempotencyRecord`: the records. `IdempotencyRecord.of`: the record of an answer.
* `IdempotencyRecord.replay`: the answer kept in a record.
-/

namespace DoubleEntry

/-- The answer to a request with a key. -/
structure IdempotencyRecord where
  key : String
  operation : String
  response : String
  statusCode : Nat
  createdAt : Instant
deriving DecidableEq

namespace IdempotencyRecord

/-- The operation that posts a payment. -/
def postPayment : String := "PostPayment"

/-- The operation that tops up an account. -/
def creditAccount : String := "CreditAccount"

/-- The record of an answer. -/
def of (key operation : String) (response : Json) (createdAt : Instant) : IdempotencyRecord :=
  ⟨key, operation, response.compact, 200, createdAt⟩

/-- The answer kept in a record, for a request of this operation. -/
def replay {α : Type} (r : IdempotencyRecord) (operation : String) (dec : Decoder α) :
    Except DomainError α :=
  if r.operation ≠ operation then .error (.keyReused r.key r.operation)
  else
    match dec.runText r.response with
    | .ok a => .ok a
    | .error e => .error (.serialization e.message)

/-- The record as a JSON value. -/
def toJson (r : IdempotencyRecord) : Json := .obj [
  ("key", .str r.key),
  ("operation", .str r.operation),
  ("response_json", .str r.response),
  ("status_code", .nat r.statusCode),
  ("created_at", r.createdAt.toJson)]

end IdempotencyRecord

instance : ToJson IdempotencyRecord := ⟨IdempotencyRecord.toJson⟩

end DoubleEntry
