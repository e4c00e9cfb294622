import DoubleEntry.Error
import DoubleEntry.Http.Status
import DoubleEntry.Text.Blank

/-!
# Errors shown to clients

Each error of a service has a status. In an environment of developers a client sees its text; in
any other one the text of a failure of the server is replaced, and every other text is stripped of
control characters and cut.

## Main definitions

* `ServiceError.status`: the status of an error.
* `exposesDetails`: the environments of developers. `sanitized`: what other clients see.
-/

namespace DoubleEntry

/-- The status of an error. -/
def ServiceError.status : ServiceError → Status
  | badRequest _ => 400
  | rejected _ => 422
  | notFound _ => 404
  | conflict _ => 409
  | unavailable _ => 503
  | internal _ => 500

/-- The environment is one of developers. -/
def exposesDetails (environment : String) : Bool :=
  let env := (trimChars environment.toList).map Char.toLower
  env = [] || env = "local".toList || env = "dev".toList

/-- A control character with the property `Cc`. -/
def isControlCode (c : Char) : Bool := c.toNat ≤ 0x1f || (0x7f ≤ c.toNat && c.toNat ≤ 0x9f)

/-- The most characters of a text that clients see. -/
def maxMessageLength : Nat := 160

/-- What a client sees of the text of an error. -/
def sanitized (status : Status) (message : String) : String :=
  if status = 500 then "internal error"
  else if status = 503 then "service unavailable, retry later"
  else
    String.ofList ((message.toList.filter fun c => !isControlCode c).take maxMessageLength)

end DoubleEntry
