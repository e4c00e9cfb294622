import DoubleEntry.Json.Basic

/-!
# The description of the interface

The interface describes itself by an OpenAPI document: its routes, and the schemas of what they take
and answer.

## Main definitions

* `OpenApi.Schema`, `OpenApi.Component`: schemas of values, and those that have a name.
* `OpenApi.Operation`: a route.
* `OpenApi.document`: the document.
-/

namespace DoubleEntry

namespace OpenApi

/-- The schema of a value. -/
inductive Schema where
  | text
  | sample (example_ : String)
  | described (description example_ : String)
  | optionalText
  | instant
  | word
  | flag
  | object
  | ref (name : String)
  | optionalRef (name : String)
  | listOf (name : String)

/-- A reference to a named schema. -/
def reference (name : String) : Json := .record [("$ref", .str ("#/components/schemas/" ++ name))]

/-- A value of a type. -/
def typed (name : String) : String × Json := ("type", .str name)

/-- The schema as it stands in the document. -/
def Schema.toJson : Schema → Json
  | text => .record [typed "string"]
  | sample e => .record [typed "string", ("example", .str e)]
  | described d e => .record [typed "string", ("example", .str e), ("description", .str d)]
  | optionalText => .record [("type", .arr [.str "string", .str "null"])]
  | instant => .record [typed "string", ("format", .str "date-time")]
  | word => .record [typed "integer", ("format", .str "int32"), ("minimum", .nat 0)]
  | flag => .record [typed "boolean"]
  | object => .record [typed "object"]
  | ref name => reference name
  | optionalRef name => .record [("oneOf", .arr [.record [typed "null"], reference name])]
  | listOf name => .record [typed "array", ("items", reference name)]

/-- The schema does not ask for a value. -/
def Schema.isOptional : Schema → Bool
  | optionalText | optionalRef _ => true
  | _ => false

/-- A named schema: an identifier, a set of names, or a record. -/
inductive Component where
  | identifier (description : String)
  | names (names : List String)
  | record (description : Option String) (fields : List (String × Schema))

/-- The named schema as it stands in the document. -/
def Component.toJson : Component → Json
  | identifier d => .record [typed "string", ("format", .str "uuid"), ("description", .str d)]
  | names ns => .record [typed "string", ("enum", .arr (ns.map Json.str))]
  | record description fields => .record <| [
      typed "object",
      ("properties", .record (fields.map fun (name, s) => (name, s.toJson))),
      ("required", .arr ((fields.filter fun f => !f.2.isOptional).map fun f => .str f.1))] ++
      Json.optField "description" Json.str description

/-- The named schemas. -/
def components : List (String × Component) := [
  ("AccountId", .identifier "Customer account owned by the Accounts service."),
  ("PaymentId", .identifier "Payment aggregate identifier. Doubles as the hold id."),
  ("JournalId", .identifier "Journal entry identifier."),
  ("Direction", .names ["credit", "debit"]),
  ("StatementKind", .names ["transfer", "bonus", "other"]),
  ("PaymentStatus", .names ["pending", "processing", "posted", "failed"]),
  ("AccountSummary", .record (some "Display data for a customer account.") [
    ("account_id", .ref "AccountId"), ("account_number", .text), ("display_name", .text),
    ("account_type", .text)]),
  ("PostPaymentRequest", .record (some "Request to move money between two customer accounts.") [
    ("idempotency_key", .described
      "Caller-supplied key; retries with the same key replay the first result" "order-2024-0001"),
    ("source_account_id", .text), ("destination_account_id", .text), ("currency", .sample "USD"),
    ("amount", .sample "50.00"), ("initiated_by", .sample "user:alice"),
    ("customer_id", .optionalText)]),
  ("PostPaymentResponse", .record none [
    ("payment_id", .ref "PaymentId"), ("status", .ref "PaymentStatus")]),
  ("PaymentResponse", .record none [
    ("payment_id", .ref "PaymentId"), ("idempotency_key", .text),
    ("source_account_id", .ref "AccountId"), ("destination_account_id", .ref "AccountId"),
    ("currency", .text), ("amount", .sample "50.000000"), ("status", .ref "PaymentStatus"),
    ("customer_id", .optionalText), ("hold_id", .ref "PaymentId"),
    ("journal_id", .optionalRef "JournalId"), ("created_at", .instant), ("updated_at", .instant),
    ("steps", .listOf "PaymentStepResponse")]),
  ("PaymentStepResponse", .record none [
    ("step", .text), ("state", .text), ("details", .object), ("attempted_at", .instant)]),
  ("CreditAccountRequest", .record (some "Administrative top-up of a customer account.") [
    ("idempotency_key", .text), ("account_id", .text), ("currency", .sample "USD"),
    ("amount", .sample "100.00"), ("initiated_by", .text), ("external_ref", .optionalText),
    ("reason", .optionalText), ("customer_id", .optionalText)]),
  ("ManualJournalEntryRequest", .record none [
    ("currency", .text), ("initiated_by", .text), ("external_ref", .optionalText),
    ("lines", .listOf "ManualLineRequest")]),
  ("ManualLineRequest", .record none [
    ("gl_account_code", .sample "GL_SYSTEM_FUND"), ("counterparty_ref", .optionalText),
    ("debit", .optionalText), ("credit", .optionalText)]),
  ("JournalPostedResponse", .record none [
    ("journal_id", .ref "JournalId"), ("status", .sample "posted")]),
  ("JournalEntriesPage", .record none [
    ("entries", .listOf "JournalEntryView"), ("page", .word), ("size", .word)]),
  ("JournalEntryView", .record none [
    ("journal_id", .ref "JournalId"), ("currency", .text), ("status", .text),
    ("booked_at", .instant), ("external_ref", .text), ("created_by", .text),
    ("lines", .listOf "JournalLineView")]),
  ("JournalLineView", .record none [
    ("gl_account_code", .text), ("counterparty_ref", .optionalRef "AccountId"), ("debit", .text),
    ("credit", .text)]),
  ("StatementPage", .record none [
    ("items", .listOf "StatementItemView"), ("page", .word), ("size", .word)]),
  ("StatementItemView", .record none [
    ("journal_id", .ref "JournalId"), ("booked_at", .instant), ("currency", .text),
    ("direction", .ref "Direction"), ("amount", .sample "50.000000"),
    ("kind", .ref "StatementKind"), ("memo", .text),
    ("counterparty_account_id", .optionalRef "AccountId"),
    ("counterparty", .optionalRef "AccountSummary")])]

/-- A parameter of a route. -/
structure Parameter where
  name : String
  place : String
  required : Bool
  schema : Schema
  description : Option String

/-- The parameter as it stands in the document. -/
def Parameter.toJson (p : Parameter) : Json := .record <| [
  ("name", .str p.name), ("in", .str p.place), ("required", .bool p.required),
  ("schema", p.schema.toJson)] ++ Json.optField "description" Json.str p.description

/-- A parameter in the path. -/
def inPath (name schema description : String) : Parameter :=
  ⟨name, "path", true, .ref schema, some description⟩

/-- A parameter in the query. -/
def inQuery (name : String) (required : Bool) (schema : Schema)
    (description : Option String) : Parameter :=
  ⟨name, "query", required, schema, description⟩

/-- The content of a request or a response. -/
def content (schema : Json) (example_ : Option Json) : Json :=
  .record [("application/json",
    .record (("schema", schema) :: Json.optField "example" id example_))]

/-- A response of a route. -/
structure Answer where
  status : String
  description : String
  content : Option Json

/-- A response with a body of a named schema. -/
def Answer.of (status description schema : String) : Answer :=
  ⟨status, description, some (OpenApi.content (reference schema) none)⟩

/-- A response that refuses. -/
def Answer.refusal (status description : String) : Answer := ⟨status, description, none⟩

/-- The response as it stands in the document. -/
def Answer.toJson (a : Answer) : Json :=
  .record (("description", .str a.description) :: Json.optField "content" id a.content)

/-- A route with its method. -/
structure Operation where
  path : String
  method : String
  id : String
  tag : String
  summary : String
  description : Option String
  parameters : List Parameter
  body : Option String
  answers : List Answer

/-- The route as it stands in the document. -/
def Operation.toJson (o : Operation) : Json := .record <| [
  ("operationId", .str o.id), ("summary", .str o.summary), ("tags", .arr [.str o.tag]),
  ("responses", .record (o.answers.map fun a => (a.status, a.toJson)))] ++
  Json.optField "description" Json.str o.description ++
  Json.optField "requestBody" (fun schema => .record
    [("content", content (reference schema) none), ("required", .bool true)]) o.body ++
  (if o.parameters.isEmpty then [] else
    [("parameters", .arr (o.parameters.map Parameter.toJson))])

/-- The window of a listing, with what is said about its pages. -/
def window (page : Option String) : List Parameter :=
  [inQuery "from" true .instant none, inQuery "to" true .instant none,
    inQuery "page" false .word page, inQuery "size" false .word none]

/-- The routes. -/
def operations : List Operation := [
  { path := "/health", method := "get", id := "health", tag := "health",
    summary := "Health check endpoint", description := none, parameters := [], body := none,
    answers := [⟨"200", "Service is healthy",
      some (content (.record []) (some (.record [("status", .str "healthy")])))⟩] },
  { path := "/v1/payments", method := "post", id := "post_payment", tag := "payments",
    summary := "Move money between two customer accounts",
    description := some "Retries with the same idempotency key replay the first result.",
    parameters := [], body := some "PostPaymentRequest",
    answers := [.of "201" "Payment posted" "PostPaymentResponse",
      .refusal "400" "Malformed request",
      .refusal "409" "Idempotency key reused for another operation",
      .refusal "422" "Refused by accounts validation or hold reservation",
      .refusal "503" "Accounts service unavailable"] },
  { path := "/v1/payments/\x7bid\x7d", method := "get", id := "get_payment", tag := "payments",
    summary := "Get a payment with its step log", description := none,
    parameters := [inPath "id" "PaymentId" "Payment ID (UUID)"], body := none,
    answers := [.of "200" "Payment details" "PaymentResponse",
      .refusal "404" "Payment not found"] },
  { path := "/v1/ledger/credits", method := "post", id := "credit_account", tag := "ledger",
    summary := "Administrative top-up of a customer account", description := none,
    parameters := [], body := some "CreditAccountRequest",
    answers := [.of "201" "Journal posted" "JournalPostedResponse",
      .refusal "400" "Malformed request", .refusal "422" "Refused by accounts validation",
      .refusal "503" "Accounts service unavailable"] },
  { path := "/v1/ledger/journal-entries", method := "post", id := "create_manual_journal_entry",
    tag := "ledger", summary := "Post a balanced manual journal entry", description := none,
    parameters := [], body := some "ManualJournalEntryRequest",
    answers := [.of "201" "Journal posted" "JournalPostedResponse",
      .refusal "400" "Malformed or unbalanced entry"] },
  { path := "/v1/ledger/accounts/\x7bid\x7d/journal-entries", method := "get",
    id := "list_journal_entries", tag := "ledger",
    summary := "Journals touching an account, newest first", description := none,
    parameters := inPath "id" "AccountId" "Account ID (UUID)" ::
      window (some "1-based page number"), body := none,
    answers := [.of "200" "Page of journal entries" "JournalEntriesPage",
      .refusal "400" "Invalid account ID or window"] },
  { path := "/v1/ledger/accounts/\x7bid\x7d/statement", method := "get", id := "list_statement",
    tag := "ledger", summary := "Account statement, optionally with counterparty details",
    description := none,
    parameters := inPath "id" "AccountId" "Account ID (UUID)" ::
      (window none ++ [inQuery "include_counterparty" false .flag none]), body := none,
    answers := [.of "200" "Page of statement lines" "StatementPage",
      .refusal "400" "Invalid account ID or window"] }]

/-- What the document says of the interface as a whole. -/
def info : Json := .record [
  ("title", .str "Ledger & Payments API"),
  ("version", .str "1.0.0"),
  ("license", .record [("name", .str "MIT")]),
  ("description", .str ("Double-entry ledger and payment posting.\n\n" ++
    "Amounts are decimal strings. " ++
    "Every error body is `\x7b\"error\": <message>, \"code\": <status>\x7d` and every response " ++
    "carries an `x-correlation-id` header."))]

/-- The groups of routes. -/
def tags : List (String × String) := [
  ("health", "Health check endpoints"),
  ("payments", "Payment posting and lookup"),
  ("ledger", "Journal postings and account activity")]

/-- The document. -/
def document : Json := .record [
  ("openapi", .str "3.1.0"),
  ("info", info),
  ("paths", .record (operations.map fun o => (o.path, .record [(o.method, o.toJson)]))),
  ("components", .record [("schemas",
    .record (components.map fun (name, c) => (name, c.toJson)))]),
  ("tags", .arr (tags.map fun (name, d) =>
    .record [("name", .str name), ("description", .str d)]))]

end OpenApi

end DoubleEntry
