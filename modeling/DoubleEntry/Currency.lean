import DoubleEntry.Error
import DoubleEntry.Json.Codec
import DoubleEntry.Text.Blank

/-!
# Currencies

A currency is named by three capital letters. It is read in either case and with blanks around it.

## Main definitions

* `Currency`: the names, with their form in the type.
* `Currency.parse`: reading, with the raw text in the error.
-/

namespace DoubleEntry

/-- A capital letter of ASCII. -/
def isCapital (c : Char) : Bool := 'A' ≤ c && c ≤ 'Z'

/-- The name of a currency. -/
structure Currency where
  code : String
  length_eq : code.toList.length = 3
  capital : code.toList.all isCapital = true
deriving DecidableEq

namespace Currency

/-- The currency of exactly these letters. -/
def ofCode? (code : String) : Option Currency :=
  if h : code.toList.length = 3 ∧ code.toList.all isCapital = true then some ⟨code, h.1, h.2⟩
  else none

/-- Letters of ASCII in upper case, all else as it is. -/
def capitals (s : String) : String := String.ofList (s.toList.map Char.toUpper)

/-- Reads a currency. -/
def parse (raw : String) : Except DomainError Currency :=
  match ofCode? (capitals (trim raw)) with
  | some c => .ok c
  | none => .error (.invalidCurrency raw)

instance : ToString Currency := ⟨code⟩

/-- The currency as a JSON value. -/
def toJson (c : Currency) : Json := .str c.code

/-- Reads a currency from its text. -/
def decoder : Decoder Currency :=
  Decoder.text.andThen fun s => (parse s).mapError fun e => .other e.message

end Currency

instance : ToJson Currency := ⟨Currency.toJson⟩
instance : FromJson Currency := ⟨Currency.decoder⟩

end DoubleEntry
