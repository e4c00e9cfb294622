import DoubleEntry.Http.Status
import DoubleEntry.Json.Printer

/-!
# Messages of HTTP

## Main definitions

* `Body`: what a message carries. `HttpRequest`, `HttpResponse`: the messages.
* `header?`: the value of a header. Names of headers are in lower case.
-/

namespace DoubleEntry

/-- What a message carries. -/
inductive Body where
  | none
  | text (s : String)
  | json (j : Json)

/-- The text of what a message carries. -/
def Body.toText : Body → String
  | none => ""
  | text s => s
  | json j => j.compact

/-- The headers of a message. -/
abbrev Headers := List (String × String)

/-- A request: `target` is its path and query. -/
structure HttpRequest where
  method : String
  target : String
  headers : Headers
  body : Body

/-- The value of a header. -/
def HttpRequest.header? (r : HttpRequest) (name : String) : Option String := r.headers.lookup name

/-- A response. -/
structure HttpResponse where
  status : Status
  headers : Headers
  body : Body

namespace HttpResponse

/-- The value of a header. -/
def header? (r : HttpResponse) (name : String) : Option String := r.headers.lookup name

/-- A response that carries nothing. -/
def empty (status : Status) : HttpResponse := ⟨status, [], .none⟩

/-- A response that carries a value. -/
def json (status : Status) (j : Json) : HttpResponse :=
  ⟨status, [("content-type", "application/json")], .json j⟩

/-- A response that carries a text. -/
def text (status : Status) (s : String) : HttpResponse :=
  ⟨status, [("content-type", "text/plain; charset=utf-8")], .text s⟩

/-- The response with a further header. -/
def withHeader (r : HttpResponse) (name value : String) : HttpResponse :=
  { r with headers := (name, value) :: r.headers }

end HttpResponse

end DoubleEntry
