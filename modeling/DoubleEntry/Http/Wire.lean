import DoubleEntry.Http.Address
import DoubleEntry.Http.Message
import DoubleEntry.Text.Blank

/-!
# Messages on the wire

A message is sent as lines of text: the first says what it is, the others are headers, and what the
message carries follows an empty line. Requests are those of version 1.0, so a response has no other
end than that of the connection.

## Main definitions

* `HttpRequest.wire`: the text of a request. `HttpResponse.ofWire?`: the response of a text.
-/

namespace DoubleEntry

/-- The end of a line. -/
def lineEnd : String := "\r\n"

/-- The text of a request to a host. -/
def HttpRequest.wire (r : HttpRequest) (host : String) : String :=
  let body := r.body.toText
  let own := [("host", host), ("content-length", toString body.utf8ByteSize)]
  let lines := (own ++ r.headers).map fun (name, value) => name ++ ": " ++ value ++ lineEnd
  r.method ++ " " ++ r.target ++ " HTTP/1.0" ++ lineEnd ++ String.join lines ++ lineEnd ++ body

namespace HttpResponse

/-- The lines before the first empty one, and what follows that. -/
def cutHead : (line : List Char) → List Char → Option (List (List Char) × List Char)
  | [], '\r' :: '\n' :: rest => some ([], rest)
  | line, '\r' :: '\n' :: rest =>
    (cutHead [] rest).map fun (lines, body) => (line.reverse :: lines, body)
  | line, c :: rest => cutHead (c :: line) rest
  | _, [] => none

/-- The header of a line. -/
def headerOf (line : List Char) : String × String :=
  let (name, value) := Uri.cutAt ':' line
  (String.ofList (name.map Char.toLower), String.ofList (trimChars value))

/-- The code in the first line of a response. -/
def statusOf? (line : List Char) : Option Status :=
  match Uri.splitAll ' ' line with
  | _ :: code :: _ => natOfDigits? code
  | _ => none

/-- The response of a text. -/
def ofWire? (s : String) : Option HttpResponse := do
  let (lines, body) ← cutHead [] s.toList
  match lines with
  | [] => none
  | first :: rest => return ⟨← statusOf? first, rest.map headerOf, .text (String.ofList body)⟩

end HttpResponse

end DoubleEntry
