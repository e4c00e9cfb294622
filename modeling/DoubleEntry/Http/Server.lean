import DoubleEntry.Http.ErrorPolicy
import DoubleEntry.Http.MediaType
import DoubleEntry.Http.Message
import DoubleEntry.Http.OpenApi
import DoubleEntry.Http.Uri
import DoubleEntry.Service.Listings
import DoubleEntry.Service.Postings

/-!
# The server

A request is answered by the route of its path. The error of a service becomes a response with its
text, which is sanitized outside the environments of developers; a crash becomes one that tells
nothing. Each response carries an identifier that correlates it with its request.

## Main definitions

* `Route`: what can be asked for. `Route.answer`: its answer.
* `Server.handle`: the answer to a request. `Server.complete`: the response as it is sent.
* `Server.serve`: a request served in a world.
-/

namespace DoubleEntry

/-- What can be asked for; identifiers are as they stand in the path. -/
inductive Route where
  | health
  | document
  | payments
  | payment (id : String)
  | credits
  | journals
  | activity (account : String)
  | statement (account : String)
deriving DecidableEq

namespace Route

/-- The route of the segments of a path; one that ends in an identifier has none if that is empty.
-/
def ofSegments : List String → Option Route
  | ["health"] => some .health
  | ["api-docs", "openapi.json"] => some .document
  | ["v1", "payments"] => some .payments
  | ["v1", "payments", id] => if id.isEmpty then none else some (.payment id)
  | ["v1", "ledger", "credits"] => some .credits
  | ["v1", "ledger", "journal-entries"] => some .journals
  | ["v1", "ledger", "accounts", id, "journal-entries"] => some (.activity id)
  | ["v1", "ledger", "accounts", id, "statement"] => some (.statement id)
  | _ => none

/-- The methods of a route. -/
def methods : Route → List String
  | payments | credits | journals => ["POST"]
  | health | document | payment _ | activity _ | statement _ => ["GET", "HEAD"]

/-- The route with the text that its identifier stands for, if it is one. -/
def decoded? : Route → Option Route
  | payment id => payment <$> Uri.segmentText? id
  | activity account => activity <$> Uri.segmentText? account
  | statement account => statement <$> Uri.segmentText? account
  | r => some r

end Route

/-- The response to an error, with a text for the client. -/
def HttpResponse.refusal (status : Status) (message : String) : HttpResponse :=
  .json status (.record [("error", .str message), ("code", .nat status)])

namespace Server

variable {α : Type}

/-- The most bytes of the body of a request. -/
def maxBody : Nat := 2097152

/-- Reads the value that a request carries. -/
def body (dec : Decoder α) (r : HttpRequest) : Except ServiceError α :=
  let text := r.body.toText
  if !(r.header? "content-type").any MediaType.isJson then
    .error (.badRequest "Expected request with `Content-Type: application/json`")
  else if maxBody < text.utf8ByteSize then
    .error (.badRequest "Failed to buffer the request body: length limit exceeded")
  else match dec.runText text with
    | .ok a => .ok a
    | .error e => .error <| .badRequest <| match e.fault with
      | .malformed b => "Failed to parse the request body as JSON: " ++ Json.locate text b
      | .mismatch _ =>
        "Failed to deserialize the JSON body into the target type: " ++ e.located

/-- Reads the fields of the query of an address. -/
def query (dec : Decoder α) (u : Uri) : Except ServiceError α :=
  match dec.runForm u.form with
  | .ok a => .ok a
  | .error e => .error (.badRequest ("Failed to deserialize query string: " ++ e.located))

/-- Goes on with what was read of a request. -/
def reading {β : Type} (r : Except ServiceError α)
    (k : α → Program (Except ServiceError β)) : Program (Except ServiceError β) :=
  match r with
  | .ok a => k a
  | .error e => .fail e

/-- Answers with the result of a service. -/
def showing (status : Status) (f : α → Json) (p : Program (Except ServiceError α)) :
    Program (Except ServiceError (Status × Json)) :=
  p.map fun r => r.map fun a => (status, f a)

/-- The response to the result of a service. -/
def respond (environment : String) : Except ServiceError (Status × Json) → HttpResponse
  | .ok (status, j) => .json status j
  | .error e =>
    .refusal e.status (if exposesDetails environment then e.text else sanitized e.status e.text)

end Server

open Server in
/-- The answer of a route whose identifier is decoded. -/
def Route.answer (r : HttpRequest) (u : Uri) : Route → Program (Except ServiceError (Status × Json))
  | health => .answer (200, .record [("status", .str "healthy")])
  | document => .answer (200, OpenApi.document)
  | payments =>
    showing 201 PaymentPosted.toJson <| reading (body PaymentRequest.decoder r) Payments.post
  | payment id => showing 200 PaymentView.toJson <|
    match Uuid.ofText? id with
    | some id => Payments.find id
    | none => .fail (.badRequest "Invalid payment ID")
  | credits =>
    showing 201 JournalPosted.toJson <| reading (body CreditRequest.decoder r) Postings.credit
  | journals =>
    showing 201 JournalPosted.toJson <| reading (body ManualRequest.decoder r) Postings.postManual
  | activity account => showing 200 JournalPage.toJson <|
    reading (query ActivityQuery.decoder u) (Listings.journals account)
  | statement account => showing 200 StatementPage.toJson <|
    reading (query StatementQuery.decoder u) (Listings.statement account)

namespace Server

/-- The answer to a request. -/
def handle (environment : String) (r : HttpRequest) : Program HttpResponse :=
  let u := Uri.ofText r.target
  match Route.ofSegments u.segments with
  | none => .done (.empty 404)
  | some route =>
    if !route.methods.contains r.method then
      .done ((HttpResponse.empty 405).withHeader "allow" (",".intercalate route.methods))
    else match route.decoded? with
      | none => .done (.text 400 "Invalid URL: Invalid UTF-8 in `id`")
      | some route => (route.answer r u).map (respond environment)

/-- The header that correlates a response with its request. -/
def correlationHeader : String := "x-correlation-id"

/-- The response as it is sent, where `fresh` correlates a request that nobody has marked. -/
def complete (r : HttpRequest) (fresh : Uuid) (response : Option HttpResponse) : HttpResponse :=
  let sent := (response.getD (.refusal 500 "internal error")).withHeader correlationHeader
    ((r.header? correlationHeader).getD fresh.toText)
  if r.method = "HEAD" then { sent with body := .none } else sent

/-- Serves a request in a world. -/
def serve {σ : Type} (world : (q : Request) → σ → Option q.Answer × σ) (environment : String)
    (r : HttpRequest) (fresh : Uuid) (s : σ) : HttpResponse × σ :=
  let (response, s) := (handle environment r).run world s
  (complete r fresh response, s)

end Server

end DoubleEntry
