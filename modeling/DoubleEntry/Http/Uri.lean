import DoubleEntry.Json.Parser
import DoubleEntry.Text.Utf8

/-!
# Addresses of requests

The path of an address is cut into segments at the slashes; its query is a form of fields. In both a
percent sign with two hexadecimal digits stands for a byte.

## Main definitions

* `Uri`: path and query. `Uri.ofText`: those of an address.
* `percentDecode`: the bytes that a part of an address stands for.
* `Uri.form`: the fields of a query.
-/

namespace DoubleEntry

/-- Path and query of an address. -/
structure Uri where
  path : String
  query : String
deriving DecidableEq

/-- The bytes that a part of an address stands for; a percent sign alone stands for itself. -/
def percentDecode : List UInt8 → List UInt8
  | 0x25 :: a :: b :: rest =>
    match Json.hexValue? (Char.ofNat a.toNat), Json.hexValue? (Char.ofNat b.toNat) with
    | some x, some y => UInt8.ofNat (x * 16 + y) :: percentDecode rest
    | _, _ => 0x25 :: percentDecode (a :: b :: rest)
  | b :: rest => b :: percentDecode rest
  | [] => []

namespace Uri

/-- The characters before the first of a kind, and those after it. -/
def cutAt (c : Char) (cs : List Char) : List Char × List Char :=
  (cs.takeWhile (· != c), (cs.dropWhile (· != c)).drop 1)

/-- Path and query of an address without a host. -/
def ofText (s : String) : Uri :=
  let (whole, _) := cutAt '#' s.toList
  let (path, query) := cutAt '?' whole
  ⟨String.ofList path, String.ofList query⟩

/-- The pieces of characters between those of a kind. -/
def splitAll (c : Char) (cs : List Char) : List (List Char) :=
  cs.foldr (fun d pieces =>
    if d = c then [] :: pieces
    else match pieces with
      | p :: ps => (d :: p) :: ps
      | [] => [[d]]) [[]]

/-- The text that a name or a value in a form stands for; a plus sign stands for a blank. -/
def formText (cs : List Char) : String :=
  let plain := String.ofList (cs.map fun c => if c = '+' then ' ' else c)
  Utf8.decodeLossy (percentDecode plain.toUTF8.toList)

/-- The fields of a query. -/
def form (u : Uri) : List (String × String) :=
  ((splitAll '&' u.query.toList).filter fun p => !p.isEmpty).map fun p =>
    let (name, value) := cutAt '=' p
    (formText name, formText value)

/-- The segments of a path after its first slash. -/
def segments (u : Uri) : List String :=
  match u.path.toList with
  | '/' :: cs => (splitAll '/' cs).map String.ofList
  | _ => []

/-- The text that a segment stands for, if it is one. -/
def segmentText? (s : String) : Option String := Utf8.decode? (percentDecode s.toUTF8.toList)

end Uri

end DoubleEntry
