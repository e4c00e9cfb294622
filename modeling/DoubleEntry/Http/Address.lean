import DoubleEntry.Digest.Signature
import DoubleEntry.Http.Uri
import DoubleEntry.Text.Number

/-!
# Addresses of servers

An address names a server of the web and what is asked of it. Its scheme is `http` or `https`; its
host is not empty. What a path or a query cannot hold is written as percent signs with two
hexadecimal digits.

## Main definitions

* `percentEncode`: a text with some of its bytes percent-encoded. `queryOf`: fields as a query.
* `Address`: an address taken apart. `Address.ofText?`: the address of a text.
* `Address.target`: what a request for an address and fields of a query asks for.
* `Address.base`: an address to which paths are added.
-/

namespace DoubleEntry

/-- A byte as a percent sign with two hexadecimal digits. -/
def percentByte (b : UInt8) : List Char :=
  ['%', (Json.hexDigit (b.toNat / 16)).toUpper, (Json.hexDigit (b.toNat % 16)).toUpper]

/-- A text whose bytes are kept if a rule says so, and percent-encoded if not. -/
def percentEncode (keeps : Char → Bool) (s : String) : String :=
  String.ofList <| (utf8 s).flatMap fun b =>
    let c := Char.ofNat b.toNat
    if b < 0x80 && keeps c then [c] else percentByte b

/-- A name or a value as it stands in a form: a blank is a plus sign. -/
def formEncode (s : String) : String :=
  String.ofList <| (utf8 s).flatMap fun b =>
    let c := Char.ofNat b.toNat
    if c = ' ' then ['+']
    else if c.isAlphanum || "*-._".toList.contains c then [c]
    else percentByte b

/-- The query that holds the fields of a form. -/
def queryOf (fields : List (String × String)) : String :=
  "&".intercalate (fields.map fun (name, value) => formEncode name ++ "=" ++ formEncode value)

/-- An address taken apart: who is asked, by host and number, and what for. -/
structure Address where
  host : String
  /-- The number at the host, if it is not the usual one of the scheme. -/
  number : Option Nat
  path : String
  query : Option String
deriving DecidableEq

namespace Address

/-- A character that stands for itself in a path. -/
def inPath (c : Char) : Bool :=
  '!' ≤ c && c ≤ '~' && !"\"#<>?^`\x7b\x7d".toList.contains c

/-- A character that stands for itself in a query. -/
def inQuery (c : Char) : Bool := '!' ≤ c && c ≤ '~' && !"\"#<>'".toList.contains c

/-- A character that no host has. -/
def isForbidden (c : Char) : Bool :=
  c.toNat ≤ 32 || c.toNat = 127 || "#/:<>?@[\\]^|%".toList.contains c

/-- What follows the scheme of an address of the web and its slashes. -/
def afterScheme? (cs : List Char) : Option (List Char) :=
  let (scheme, rest) := Uri.cutAt ':' cs
  if ["http", "https"].contains (String.ofList (scheme.map Char.toLower)) && cs.contains ':' then
    some (rest.dropWhile fun c => c = '/' || c = '\\')
  else none

/-- The number that follows a host after a colon, if there is one; `none` if it is no number. -/
def number? : List Char → Option (Option Nat)
  | [] | [':'] => some none
  | ':' :: ds => some <$> (digitsBelow (twoPow 16) 0 ds).toOption
  | _ => none

/-- Host and number of the part of an address before its path. A host in brackets is a number of the
sixth version of the protocol. -/
def hostOf? (cs : List Char) : Option (String × Option Nat) := do
  let server := (cs.reverse.takeWhile (· != '@')).reverse
  match server with
  | '[' :: rest =>
    let (inner, after) := Uri.cutAt ']' rest
    let isPart (c : Char) := (Json.hexValue? c).isSome || c = ':' || c = '.'
    if inner.isEmpty || !inner.all isPart || !rest.contains ']' then none
    else return (String.ofList inner, ← number? after)
  | _ =>
    let host := server.takeWhile (· != ':')
    if host.isEmpty || host.any isForbidden then none
    else return (String.ofList host, ← number? (server.drop host.length))

/-- The characters of an address that count: none at its ends up to the blank, no tabs and no line
breaks. -/
def significant (s : String) : List Char :=
  let isEdge (c : Char) := c.toNat ≤ 32
  let inner := ((s.toList.dropWhile isEdge).reverse.dropWhile isEdge).reverse
  inner.filter fun c => !(['\t', '\n', '\r'].contains c)

/-- The address of a text; what follows a hash sign does not count. -/
def ofText? (s : String) : Option Address := do
  let cs := significant s
  let rest ← afterScheme? cs
  let isHost (c : Char) := !(['/', '\\', '?', '#'].contains c)
  let (host, number) ← hostOf? (rest.takeWhile isHost)
  let (whole, _) := Uri.cutAt '#' (rest.dropWhile isHost)
  let (path, query) := Uri.cutAt '?' whole
  let path := percentEncode inPath (String.ofList (path.map fun c => if c = '\\' then '/' else c))
  return {
    host := host
    number := number
    path := if path.isEmpty then "/" else path
    query :=
      if whole.contains '?' then some (percentEncode inQuery (String.ofList query)) else none }

/-- Host and number, as a request names them. -/
def server (a : Address) : String :=
  (if a.host.toList.contains ':' then "[" ++ a.host ++ "]" else a.host) ++
    match a.number with
    | none => ""
    | some n => ":" ++ toString n

/-- What a request for an address asks for, with fields added to the query. -/
def target (a : Address) (fields : List (String × String)) : String :=
  match a.query, fields with
  | none, [] => a.path
  | none, _ => a.path ++ "?" ++ queryOf fields
  | some q, [] => a.path ++ "?" ++ q
  | some q, _ => a.path ++ "?" ++ q ++ "&" ++ queryOf fields

/-- An address without the slashes at its end, to which a path can be added. -/
def base (s : String) : String := String.ofList (s.toList.reverse.dropWhile (· = '/')).reverse

end Address

end DoubleEntry
