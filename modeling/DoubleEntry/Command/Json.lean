import DoubleEntry.Command.Basic
import DoubleEntry.Journal.Json

/-!
# Commands as JSON

A command is shown with what it is about, and as it was understood: texts trimmed, amounts with the
places that were written.

## Main definitions

* `PaymentCommand.toJson`, `CreditCommand.toJson`, `ManualCommand.toJson`: commands to post.
* `Listing.toJson`, `StatementCommand.toJson`: commands to list.
-/

namespace DoubleEntry

/-- The command as a JSON value. -/
def PaymentCommand.toJson (c : PaymentCommand) : Json := .obj [
  ("idempotency_key", .str c.key),
  ("source", c.source.toJson),
  ("destination", c.destination.toJson),
  ("currency", c.currency.toJson),
  ("amount", c.amount.toJson),
  ("initiated_by", .str c.initiatedBy),
  ("customer_id", Json.option Json.str c.customerId),
  ("resource", c.resource.toJson)]

/-- The command as a JSON value. -/
def CreditCommand.toJson (c : CreditCommand) : Json := .obj [
  ("idempotency_key", .str c.key),
  ("account", c.account.toJson),
  ("currency", c.currency.toJson),
  ("amount", c.amount.toJson),
  ("initiated_by", .str c.initiatedBy),
  ("external_ref", .str c.externalRef),
  ("resource", c.resource.toJson)]

/-- The line as a JSON value. -/
def ManualLine.toJson (l : ManualLine) : Json := .obj [
  ("gl_account", l.glAccount.toJson),
  ("counterparty", Json.option Uuid.toJson l.counterparty),
  ("debit", l.debit.toJson),
  ("credit", l.credit.toJson)]

/-- The command as a JSON value. -/
def ManualCommand.toJson (c : ManualCommand) : Json := .obj [
  ("currency", c.currency.toJson),
  ("initiated_by", .str c.initiatedBy),
  ("external_ref", .str c.externalRef),
  ("lines", .arr (c.lines.map ManualLine.toJson)),
  ("resource", c.resource.toJson)]

/-- The fields of a listing. -/
def Listing.fields (l : Listing) : List (String × Json) := [
  ("account", l.account.toJson),
  ("from", l.start.toJson),
  ("to", l.stop.toJson),
  ("page", .nat l.page),
  ("size", .nat l.size)]

/-- The listing as a JSON value. -/
def Listing.toJson (l : Listing) : Json := .obj l.fields

/-- The command as a JSON value. -/
def StatementCommand.toJson (c : StatementCommand) : Json :=
  .obj (c.listing.fields ++ [("include_counterparty", .bool c.includeCounterparty)])

instance : ToJson PaymentCommand := ⟨PaymentCommand.toJson⟩
instance : ToJson CreditCommand := ⟨CreditCommand.toJson⟩
instance : ToJson ManualLine := ⟨ManualLine.toJson⟩
instance : ToJson ManualCommand := ⟨ManualCommand.toJson⟩
instance : ToJson Listing := ⟨Listing.toJson⟩
instance : ToJson StatementCommand := ⟨StatementCommand.toJson⟩

end DoubleEntry
