import DoubleEntry.Json.Parser
import DoubleEntry.Text.Quoted
import DoubleEntry.Text.Number
import DoubleEntry.Binary64.Shortest

/-!
# Reading values of a known shape

A `Decoder` takes a draft to a value of a type or to the first error in the order of the text. A
record is described field by field (`Fields`): it may be written as an object, whose unknown fields
are passed over, or as an array of its fields in their order.

## Main definitions

* `Mismatch`, `DecodeError`: why a value does not have the shape, and where.
* `Decoder`: readers of drafts, with `Decoder.run` for values and `Decoder.runText` for texts.
* `Fields`: descriptions of records, with `Fields.decoder`.
-/

namespace DoubleEntry

/-- A kind of value that was found where another was expected. -/
inductive Found where
  | null
  | bool (b : Bool)
  | int (n : Int)
  | float (x : Float)
  | str (s : String)
  | sequence
  | map

/-- How a message names what was found. -/
def Found.describe : Found → String
  | null => "null"
  | bool b => "boolean `" ++ (if b then "true" else "false") ++ "`"
  | int n => "integer `" ++ toString n ++ "`"
  | float x =>
    let text := Binary64.positionalText x
    "floating point `" ++ text ++ (if text.toList.contains '.' then "" else ".0") ++ "`"
  | str s => "string " ++ quote s
  | sequence => "sequence"
  | map => "map"

/-- A list of alternatives in a message. -/
def alternatives : List String → String
  | [] => "there are no variants"
  | [a] => "expected `" ++ a ++ "`"
  | [a, b] => "expected `" ++ a ++ "` or `" ++ b ++ "`"
  | names => "expected one of " ++ ", ".intercalate (names.map fun a => "`" ++ a ++ "`")

/-- Why a value does not have the expected shape. -/
inductive Mismatch where
  | wrongType (found : Found) (expected : String)
  | wrongValue (found : Found) (expected : String)
  | wrongLength (length : Nat) (expected : String)
  | missingField (name : String)
  | duplicateField (name : String)
  | unknownVariant (name : String) (known : List String)
  | other (message : String)

/-- The wording of a mismatch. -/
def Mismatch.message : Mismatch → String
  | wrongType found expected => "invalid type: " ++ found.describe ++ ", expected " ++ expected
  | wrongValue found expected => "invalid value: " ++ found.describe ++ ", expected " ++ expected
  | wrongLength length expected =>
    "invalid length " ++ toString length ++ ", expected " ++ expected
  | missingField name => "missing field `" ++ name ++ "`"
  | duplicateField name => "duplicate field `" ++ name ++ "`"
  | unknownVariant name known => "unknown variant `" ++ name ++ "`, " ++ alternatives known
  | other message => message

/-- One step from a value into a part of it. -/
inductive Segment where
  | field (name : String)
  | item (index : Nat)

/-- The place of a part: fields after points, items in brackets. -/
def pathText : List Segment → String
  | [] => ""
  | .field name :: rest => name ++ pathTail rest
  | .item i :: rest => "[" ++ toString i ++ "]" ++ pathTail rest
where
  /-- The place after its first step. -/
  pathTail : List Segment → String
    | [] => ""
    | .field name :: rest => "." ++ name ++ pathTail rest
    | .item i :: rest => "[" ++ toString i ++ "]" ++ pathTail rest

/-- What a reader found: no JSON, or JSON of another shape. -/
inductive DecodeFault where
  | malformed (b : Break)
  | mismatch (m : Mismatch)

/-- A fault and the place of the part it is in. -/
structure DecodeError where
  path : List Segment
  fault : DecodeFault

namespace DecodeError

/-- The wording of the fault, without the place. -/
def message (e : DecodeError) : String :=
  match e.fault with
  | .malformed b => b.cause.message
  | .mismatch m => m.message

/-- The wording with the place in front, if it is not the whole value. -/
def located (e : DecodeError) : String :=
  let path := pathText e.path
  if path.isEmpty then e.message else path ++ ": " ++ e.message

/-- The same fault seen from the value that holds the part. -/
def under (s : Segment) (e : DecodeError) : DecodeError := { e with path := s :: e.path }

/-- A fault of the value itself. -/
def here (f : DecodeFault) : DecodeError := ⟨[], f⟩

end DecodeError

/-- A reader of drafts. -/
abbrev Decoder (α : Type) := Source → Draft → Except DecodeError α

namespace Decoder

variable {α β : Type}

/-- Fails with a mismatch of the value itself. -/
def mismatch (m : Mismatch) : Except DecodeError α := .error (.here (.mismatch m))

/-- Fails because the text is no JSON. -/
def malformed (b : Break) : Except DecodeError α := .error (.here (.malformed b))

/-- Passes over a draft that has no break. -/
def skip (d : Draft) : Except DecodeError Unit :=
  match d.fault? with
  | some e => malformed e
  | none => .ok ()

/-- Fails on a draft that is not of the expected kind. -/
def unexpected (expected : String) : Draft → Except DecodeError α
  | .null => mismatch (.wrongType .null expected)
  | .bool b => mismatch (.wrongType (.bool b) expected)
  | .num (.int n) => mismatch (.wrongType (.int n) expected)
  | .num (.float x) => mismatch (.wrongType (.float x) expected)
  | .str s => mismatch (.wrongType (.str s) expected)
  | .arr _ _ => mismatch (.wrongType .sequence expected)
  | .obj _ _ => mismatch (.wrongType .map expected)
  | .hugeNumber left => malformed ⟨.numberOutOfRange, left⟩
  | .broken b => malformed b

/-- A reader followed by a check of what it read. -/
def andThen (dec : Decoder α) (f : α → Except Mismatch β) : Decoder β := fun src d => do
  match f (← dec src d) with
  | .ok b => .ok b
  | .error m => mismatch m

/-- Any value. -/
def json : Decoder Json := fun _ d =>
  match d.toJson with
  | .ok j => .ok j
  | .error e => malformed e

/-- A text, described as expected. -/
def textAs (expected : String) : Decoder String
  | _, .str s => .ok s
  | _, d => unexpected expected d

/-- A text. -/
def text : Decoder String := textAs "a string"

/-- A truth value; in a form it is spelt out. -/
def bool : Decoder Bool
  | .form, .str s =>
    if s = "true" then .ok true
    else if s = "false" then .ok false
    else mismatch (.other "provided string was not `true` or `false`")
  | _, .bool b => .ok b
  | _, d => unexpected "a boolean" d

/-- A natural number below a bound, described as expected; in a form it is spelt out. -/
def natBelow (bound : Nat) (expected : String) : Decoder Nat
  | .form, .str s =>
    match numberBelow bound s with
    | .ok n => .ok n
    | .error e => mismatch (.other e.message)
  | _, .num (.int n) =>
    if 0 ≤ n ∧ n < bound then .ok n.toNat else mismatch (.wrongValue (.int n) expected)
  | _, d => unexpected expected d

/-- A 32-bit natural number. -/
def word32 : Decoder Nat := natBelow (twoPow 32) "u32"

/-- A 32-bit integer. -/
def int32 : Decoder Int
  | _, .num (.int n) =>
    if -(twoPow 31 : Int) ≤ n ∧ n < twoPow 31 then .ok n else mismatch (.wrongValue (.int n) "i32")
  | _, d => unexpected "i32" d

/-- `null`, or a value of the reader. -/
def option (dec : Decoder α) : Decoder (Option α)
  | _, .null => .ok none
  | src, d => some <$> dec src d

/-- The items of a list of drafts, each under its index. -/
def itemsFrom (dec : Draft → Except DecodeError α) : Nat → List Draft → Except DecodeError (List α)
  | _, [] => .ok []
  | i, d :: ds => do
    let a ← (dec d).mapError (.under (.item i))
    let as ← itemsFrom dec (i + 1) ds
    return a :: as

/-- An array of values of the reader. -/
def list (dec : Decoder α) : Decoder (List α)
  | src, .arr items ending => do
    let as ← itemsFrom (dec src) 0 items
    match ending.fault? with
    | some e => malformed e
    | none => return as
  | _, d => unexpected "a sequence" d

/-- A decimal: a text, or a number by its shortest text. -/
def decimal : Decoder Decimal := fun _ d =>
  let expected := "a Decimal type representing a fixed-point number"
  match d with
  | .str s =>
    match (Decimal.ofText? s).or (Decimal.ofScientific? s) with
    | some x => .ok x
    | none => mismatch (.wrongValue (.str s) expected)
  | .num (.int n) =>
    match Decimal.ofInt? n with
    | some x => .ok x
    | none => mismatch (.wrongValue (.int n) expected)
  | .num (.float x) =>
    match Decimal.ofText? (Binary64.positionalText x) with
    | some y => .ok y
    | none => mismatch (.wrongValue (.float x) expected)
  | d => unexpected expected d

/-- The value under a name of a set. -/
def named (names : List (String × α)) (s : String) : Except DecodeError α :=
  match names.lookup s with
  | some a => .ok a
  | none => mismatch (.unknownVariant s (names.map Prod.fst))

/-- Nothing, written `null`. -/
def nothing : Draft → Except DecodeError Unit
  | .null => .ok ()
  | d => unexpected "unit" d

/-- One of a set of names, written as a text or as an object with `null` under the name. -/
def variant (names : List (String × α)) : Decoder α
  | _, .str s => named names s
  | .text, .obj [] ending => malformed (ending.fault?.getD ⟨.keyNotString, 0⟩)
  | .text, .obj ((s, v) :: rest) ending => do
    let a ← named names s
    nothing v
    match rest, ending with
    | [], .closed => return a
    | [], .broken ⟨.eofInObject, left⟩ => malformed ⟨.eofInObject, left⟩
    | _, _ => malformed ⟨.expectedValue, 0⟩
  | .text, .broken b => malformed b
  | .text, _ => malformed ⟨.expectedValue, 0⟩
  | _, .obj [(s, v)] _ => do
    let a ← named names s
    nothing v
    return a
  | _, .obj _ _ => mismatch (.wrongValue .map "map with a single key")
  | _, d => unexpected "string or map" d

/-- Reads a value. -/
def run (dec : Decoder α) (j : Json) : Except DecodeError α := dec .value j.toDraft

/-- Reads the fields of a form. -/
def runForm (dec : Decoder α) (fields : List (String × String)) : Except DecodeError α :=
  dec .form (.obj (fields.map fun (key, value) => (key, .str value)) .closed)

/-- Reads a text, after which nothing but blanks may stand. -/
def runText (dec : Decoder α) (s : String) : Except DecodeError α := do
  let (d, after) := Json.draftOf s
  let a ← dec .text d
  match after with
  | some e => malformed e
  | none => return a

end Decoder

/-- What a record asks of one field. -/
structure FieldSpec where
  name : String
  /-- A missing field of an object is an error. -/
  required : Bool
  /-- A missing item of an array is an error. -/
  positional : Bool
  /-- The reader of the field, without its value. -/
  check : Decoder Unit

/-- The fields of a record, in their order, and how the record is made of them. -/
structure Fields (α : Type) where
  specs : List FieldSpec
  build : Source → (String → Option Draft) → Except DecodeError α

namespace Fields

variable {α β : Type}

instance : Functor Fields where
  map f x := ⟨x.specs, fun src look => f <$> x.build src look⟩

/-- A record with no fields. -/
def pure (a : α) : Fields α := ⟨[], fun _ _ => .ok a⟩

/-- The fields of one description, then those of another. -/
def seq (f : Fields (α → β)) (x : Unit → Fields α) : Fields β :=
  let y := x ()
  ⟨f.specs ++ y.specs, fun src look => do return (← f.build src look) (← y.build src look)⟩

instance : Applicative Fields where
  pure := Fields.pure
  seq := Fields.seq

/-- The field of a name, whether it must be there and what it is if it is not. -/
def one (name : String) (dec : Decoder α) (required positional : Bool) (missing : Option α) :
    Fields α where
  specs := [⟨name, required, positional, fun src d => do let _ ← dec src d; return ()⟩]
  build src look :=
    match look name, missing with
    | some d, _ => dec src d
    | none, some a => .ok a
    | none, none => Decoder.mismatch (.missingField name)

/-- A field that must be there. -/
def required (name : String) (dec : Decoder α) : Fields α := one name dec true true none

/-- A field that may be `null`, or missing from an object. -/
def optional (name : String) (dec : Decoder α) : Fields (Option α) :=
  one name (Decoder.option dec) false true (some none)

/-- A field that has a value if it is missing. -/
def defaulted (name : String) (dec : Decoder α) (a : α) : Fields α :=
  one name dec false false (some a)

/-- A field that may be `null`, or missing from an object or an array. -/
def omissible (name : String) (dec : Decoder α) : Fields (Option α) :=
  defaulted name (Decoder.option dec) none

/-- Checks the fields of an object in the order of the text. -/
def checkFields (src : Source) (specs : List FieldSpec) :
    (seen : List String) → List (String × Draft) → Except DecodeError (List String)
  | seen, [] => .ok seen
  | seen, (name, d) :: rest =>
    match specs.find? fun s => s.name = name with
    | none => do
      (Decoder.skip d).mapError (.under (.field name))
      checkFields src specs seen rest
    | some s =>
      if seen.contains name then Decoder.mismatch (.duplicateField name)
      else do
        (s.check src d).mapError (.under (.field name))
        checkFields src specs (name :: seen) rest

/-- Checks the items of an array against the fields in their order. -/
def checkItems (src : Source) (expected : String) (ending : Ending) (total : Nat) :
    (index : Nat) → List FieldSpec → List Draft → Except DecodeError Unit
  | _, [], [] =>
    match ending.faultAtEnd? with
    | some e => Decoder.malformed e
    | none => .ok ()
  | _, [], _ :: _ =>
    match src with
    | .text => Decoder.malformed ⟨.trailingCharacters, 0⟩
    | _ => Decoder.mismatch (.wrongLength total "fewer elements in array")
  | i, s :: specs, [] =>
    match ending.fault? with
    | some e => Decoder.malformed e
    | none =>
      if s.positional then Decoder.mismatch (.wrongLength i expected)
      else checkItems src expected ending total (i + 1) specs []
  | i, s :: specs, d :: ds => do
    (s.check src d).mapError (.under (.item i))
    checkItems src expected ending total (i + 1) specs ds

/-- The reader of a record with a name. -/
def decoder (name : String) (fields : Fields α) : Decoder α
  | src, .obj entries ending => do
    let seen ← checkFields src fields.specs [] entries
    match ending.fault? with
    | some e => Decoder.malformed e
    | none =>
      match fields.specs.find? fun s => s.required && !seen.contains s.name with
      | some s => Decoder.mismatch (.missingField s.name)
      | none => fields.build src fun key => entries.lookup key
  | src, .arr items ending => do
    let count := fields.specs.length
    let expected := "struct " ++ name ++ " with " ++ toString count ++
      (if count = 1 then " element" else " elements")
    checkItems src expected ending items.length 0 fields.specs items
    fields.build src fun key => ((fields.specs.map FieldSpec.name).zip items).lookup key
  | _, d => Decoder.unexpected ("struct " ++ name) d

end Fields

end DoubleEntry
