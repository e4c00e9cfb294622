/-!
# Media types

## Main definitions

* `MediaType.isJson`: the value of a content type names JSON or a format built on it.
-/

namespace DoubleEntry

namespace MediaType

/-- A character of a token. -/
def isToken (c : Char) : Bool :=
  ('a' ≤ c && c ≤ 'z') || ('A' ≤ c && c ≤ 'Z') || ('0' ≤ c && c ≤ '9') ||
    "!#$%&'*+-.^_`|~".toList.contains c

/-- A character between quotes. -/
def isQuotedChar (c : Char) : Bool := ' ' ≤ c && c.toNat < 127

/-- Reads a value in quotes and the semicolon after it: what follows, if it is well formed. -/
def afterQuoted : List Char → Option (List Char)
  | [] => none
  | ['"'] => some []
  | '"' :: ';' :: rest => some rest
  | '"' :: _ => none
  | c :: rest => if isQuotedChar c then afterQuoted rest else none

/-- Parameters, each a name, an equals sign and a value; `fuel` bounds their length. -/
def areParameters : (fuel : Nat) → List Char → Bool
  | 0, _ => false
  | fuel + 1, cs =>
    match cs.dropWhile (· == ' ') with
    | [] => true
    | cs =>
      let name := cs.takeWhile isToken
      match cs.drop name.length with
      | '=' :: '"' :: rest =>
        !name.isEmpty && (afterQuoted rest).any (areParameters fuel)
      | '=' :: rest =>
        let value := rest.takeWhile isToken
        match rest.drop value.length with
        | [] => !name.isEmpty
        | ';' :: rest => !name.isEmpty && !value.isEmpty && areParameters fuel rest
        | _ => false
      | _ => false

/-- The part of a subtype before its last plus sign, and the part after it. -/
def suffix (sub : List Char) : List Char × List Char :=
  let tail := (sub.reverse.takeWhile (· != '+')).reverse
  if tail.length = sub.length then (sub, []) else (sub.take (sub.length - tail.length - 1), tail)

/-- The type is `application/json`, or one of the types of applications that end in `+json`. -/
def isJson (value : String) : Bool :=
  let cs := value.toList
  let type := cs.takeWhile isToken
  match cs.drop type.length with
  | '/' :: rest =>
    let sub := rest.takeWhile isToken
    let parameters := match rest.drop sub.length with
      | [] => true
      | ';' :: ps => areParameters (ps.length + 1) ps
      | _ => false
    let lower := fun (s : List Char) => String.ofList (s.map Char.toLower)
    let (before, after) := suffix sub
    !sub.isEmpty && parameters && lower type == "application" &&
      (lower before == "json" || lower after == "json")
  | _ => false

end MediaType

end DoubleEntry
