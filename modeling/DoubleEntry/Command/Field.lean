import DoubleEntry.Currency
import DoubleEntry.Decimal.Text
import DoubleEntry.Instant.Text
import DoubleEntry.Text.Digit
import DoubleEntry.Uuid

/-!
# Fields of requests

Every field of a request is a text that is trimmed and then asked for its form. A field that is
blank, holds control characters or is too long is refused before its form is looked at. The forms
admit characters of ASCII only, but for the digits of an amount, of which any decimal digit passes
the form and only those of ASCII can be read.

## Main definitions

* `Field.required`, `Field.optional`: trimmed texts.
* `Field.key`, `Field.account`, `Field.currency`, `Field.amount`, `Field.decimal`, `Field.actor`,
  `Field.externalRef`, `Field.reason`: texts of a form.
* `Field.page`, `Field.window`: the part of a listing that is asked for.
-/

namespace DoubleEntry

namespace Field

/-- Refuses a request. -/
def refuse {α : Type} (c : Complaint) : Except DomainError α := .error (.validation c)

/-- A trimmed text that is not blank, holds no control characters and is not too long. -/
def required (raw field : String) (most : Nat) : Except DomainError String :=
  let s := trim raw
  if s.toList.isEmpty then refuse (.required field)
  else if s.toList.any isControl then refuse (.controlCharacters field)
  else if most < s.toList.length then refuse (.tooLong field)
  else .ok s

/-- A trimmed text, or none if it is blank. -/
def optional (raw : Option String) (field : String) (most : Nat) :
    Except DomainError (Option String) :=
  match raw.map trim with
  | none => .ok none
  | some s => if s.toList.isEmpty then .ok none else some <$> required s field most

/-- A letter or digit of ASCII. -/
def isAlphanumeric (c : Char) : Bool :=
  ('a' ≤ c && c ≤ 'z') || ('A' ≤ c && c ≤ 'Z') || ('0' ≤ c && c ≤ '9')

/-- A letter or digit of ASCII, or one of these marks. -/
def isOneOf (marks : String) (c : Char) : Bool := isAlphanumeric c || marks.toList.contains c

/-- A character of a key after its first one. -/
def isKeyChar : Char → Bool := isOneOf "._:-"

/-- The form of keys: 8 to 128 characters, the first a letter or digit. -/
def isKey : List Char → Bool
  | [] => false
  | c :: cs => isAlphanumeric c && cs.all isKeyChar && 7 ≤ cs.length && cs.length ≤ 127

/-- The form of actors. -/
def isActor (cs : List Char) : Bool :=
  cs.all (isOneOf ":_@./-") && 1 ≤ cs.length && cs.length ≤ 200

/-- The form of references. -/
def isExternalRef (cs : List Char) : Bool :=
  cs.all (isOneOf ":_@./#-") && 1 ≤ cs.length && cs.length ≤ 140

/-- A character of a reason. -/
def isReasonChar (c : Char) : Bool := ('a' ≤ c && c ≤ 'z') || ('0' ≤ c && c ≤ '9') || c = '_'

/-- The form of reasons. -/
def isReason (cs : List Char) : Bool := cs.all isReasonChar && 2 ≤ cs.length && cs.length ≤ 64

/-- The fraction of an amount: none, or a point and one to six digits. -/
def isFraction : List Char → Bool
  | [] => true
  | '.' :: ds => ds.all isDecimalDigit && 1 ≤ ds.length && ds.length ≤ 6
  | _ => false

/-- The form of amounts: up to 20 digits without a leading nought, and a fraction. -/
def isAmount (cs : List Char) : Bool :=
  match cs with
  | '0' :: rest => isFraction rest
  | c :: rest =>
    '1' ≤ c && c ≤ '9' &&
      (rest.takeWhile isDecimalDigit).length ≤ 19 && isFraction (rest.dropWhile isDecimalDigit)
  | [] => false

/-- A key of a request. -/
def key (raw : String) : Except DomainError String := do
  let s ← required raw "idempotency_key" 128
  if isKey s.toList then .ok s else refuse (.malformed "idempotency_key")

/-- A customer account. -/
def account (raw field : String) : Except DomainError AccountId := do
  let s ← required raw field 64
  match Uuid.ofText? s with
  | some u => .ok u
  | none => refuse (.notUuid field)

/-- A customer account, or none if the text is blank. -/
def optionalAccount (raw : Option String) (field : String) :
    Except DomainError (Option AccountId) := do
  match ← optional raw field 64 with
  | some s => some <$> account s field
  | none => .ok none

/-- A currency. -/
def currency (raw : String) : Except DomainError Currency := do
  match Currency.parse (← required raw "currency" 3) with
  | .ok c => .ok c
  | .error _ => refuse .notCurrency

/-- An amount, which may be nought. -/
def decimal (raw field : String) : Except DomainError Decimal := do
  let s ← required raw field 32
  if isAmount s.toList then
    match Decimal.ofText? s with
    | some d => .ok d
    | none => .error (.invalidAmount (.outOfRange field))
  else .error (.invalidAmount (.notDecimal field))

/-- An amount above nought. -/
def amount (raw field : String) : Except DomainError Decimal := do
  let d ← decimal raw field
  if d.isZero then .error (.invalidAmount (.notPositive field)) else .ok d

/-- Who asks. -/
def actor (raw : String) : Except DomainError String := do
  let s ← required raw "initiated_by" 200
  if isActor s.toList then .ok s else refuse (.malformed "initiated_by")

/-- A reference, or none if the text is blank. -/
def externalRef (raw : Option String) : Except DomainError (Option String) := do
  match ← optional raw "external_ref" 140 with
  | none => .ok none
  | some s => if isExternalRef s.toList then .ok (some s) else refuse (.malformed "external_ref")

/-- The lower case of the letters that have one in ASCII; the Kelvin sign is one of them. -/
def lowerChar (c : Char) : Char := if c.toNat = 0x212a then 'k' else c.toLower

/-- A reason in lower case, or none if the text is blank. -/
def reason (raw : Option String) : Except DomainError (Option String) := do
  match ← optional raw "reason" 64 with
  | none => .ok none
  | some s =>
    let cs := s.toList.map lowerChar
    if isReason cs then .ok (some (String.ofList cs)) else refuse (.malformed "reason")

/-- Entries on a page where the request does not say. -/
def defaultPageSize : Nat := 20

/-- The most entries on a page. -/
def maxPageSize : Nat := 200

/-- The page asked for and its size; a nought counts as left out. -/
def page (page size : Option Nat) : Except DomainError (Nat × Nat) :=
  let page := (page.filter (0 < ·)).getD 1
  let size := (size.filter (0 < ·)).getD defaultPageSize
  if maxPageSize < size then refuse (.pageTooLarge maxPageSize) else .ok (page, size)

/-- An instant of the years 2000 to 2100. -/
def timestamp (i : Instant) (field : String) : Except DomainError Instant :=
  if 2000 ≤ i.year ∧ i.year ≤ 2100 then .ok i else refuse (.outOfRange field)

/-- A number of days that a span of time can have. -/
def isSpanOfDays (days : Int) : Bool := days.natAbs * 86400 ≤ 9223372036854775

/-- A span of time of at most so many days, with both of its ends. -/
def window (start stop : Instant) (maxDays : Int) : Except DomainError (Instant × Instant) := do
  let start ← timestamp start "from"
  let stop ← timestamp stop "to"
  if stop < start then refuse .windowReversed
  else if maxDays * Instant.day * Instant.second < stop.since start then
    refuse (.windowTooLarge maxDays)
  else .ok (start, stop)

end Field

end DoubleEntry
