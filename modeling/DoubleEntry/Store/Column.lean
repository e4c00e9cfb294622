import DoubleEntry.Currency
import DoubleEntry.Decimal.Text
import DoubleEntry.Halt
import DoubleEntry.Instant.Text
import DoubleEntry.Json.Printer
import DoubleEntry.Uuid

/-!
# Columns of a table

A table keeps its values as texts: amounts with six places, instants down to the microsecond,
identifiers, JSON values in their compact form. What is read back may be of another form, because
tables can be changed from outside.

## Main definitions

* `Column.uuid`, `Column.instant`, `Column.decimal`, `Column.json`, `Column.statusCode`: readers of
  columns, each with its error.
-/

namespace DoubleEntry

namespace Column

/-- A column that cannot be read. -/
def bad {α : Type} (text : String) : Except StoreError α := .error (.database text)

/-- Reads an identifier. -/
def uuid (raw : String) : Except StoreError Uuid :=
  match Uuid.read raw with
  | .ok u => .ok u
  | .error e => bad ("bad uuid " ++ raw ++ ": " ++ e.message)

/-- Reads an instant. -/
def instant (raw : String) : Except StoreError Instant :=
  match Instant.ofStrictText? raw with
  | .ok i => .ok i
  | .error e => bad ("bad timestamp " ++ raw ++ ": " ++ e.message)

/-- Reads a decimal, in the scientific form also. -/
def decimal (raw : String) : Except StoreError Decimal :=
  match (Decimal.ofText? raw).or (Decimal.ofScientific? raw) with
  | some d => .ok d
  | none => bad ("bad decimal " ++ raw ++ ": no decimal number")

/-- Reads a JSON value. -/
def json (raw : String) : Except StoreError Json :=
  match Json.parse raw with
  | .ok j => .ok j
  | .error b => bad (Json.locate raw b)

/-- Reads what a rule of the domain allows. -/
def domain {α : Type} (r : Except DomainError α) : Except StoreError α := r.mapError .domain

/-- Reads a column that may be empty. -/
def optional {α β : Type} (f : α → Except StoreError β) : Option α → Except StoreError (Option β)
  | none => .ok none
  | some a => some <$> f a

/-- Reads a status code, a word of 16 bits. -/
def statusCode (n : Int) : Except StoreError Nat :=
  if n < 0 then bad "number too small to fit in target type"
  else if 65536 ≤ n then bad "number too large to fit in target type"
  else .ok n.toNat

/-- Reads a truth value, which is a number. -/
def flag (n : Int) : Bool := n != 0

/-- A truth value as a number. -/
def ofFlag (b : Bool) : Int := if b then 1 else 0

end Column

end DoubleEntry
