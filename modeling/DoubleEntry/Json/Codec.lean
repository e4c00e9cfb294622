import DoubleEntry.Json.Decoder

/-!
# Types with a JSON form

## Main definitions

* `ToJson`: types whose values are written as JSON. `FromJson`: types whose values are read.
* `Json.decode`: reads a value of a type. `Json.get`: reads a field, where a missing one is `null`.
-/

namespace DoubleEntry

/-- Values of the type are written as JSON values. -/
class ToJson (α : Type) where
  toJson : α → Json

/-- Values of the type are read from JSON. -/
class FromJson (α : Type) where
  decoder : Decoder α

export ToJson (toJson)

section

variable {α : Type}

instance : ToJson Json := ⟨id⟩
instance : ToJson String := ⟨Json.str⟩
instance : ToJson Bool := ⟨Json.bool⟩
instance : ToJson Nat := ⟨Json.nat⟩
instance [ToJson α] : ToJson (Option α) := ⟨Json.option toJson⟩
instance [ToJson α] : ToJson (List α) := ⟨fun as => .arr (as.map toJson)⟩

instance : FromJson Json := ⟨Decoder.json⟩
instance : FromJson String := ⟨Decoder.text⟩
instance : FromJson Bool := ⟨Decoder.bool⟩
instance : FromJson Decimal := ⟨Decoder.decimal⟩
instance [FromJson α] : FromJson (Option α) := ⟨Decoder.option FromJson.decoder⟩
instance [FromJson α] : FromJson (List α) := ⟨Decoder.list FromJson.decoder⟩

end

namespace Json

/-- Reads a value of a type. -/
def decode {α : Type} [FromJson α] (j : Json) : Except DecodeError α :=
  (FromJson.decoder : Decoder α).run j

/-- Reads a field of an object; a missing one is `null`. -/
def get {α : Type} [FromJson α] (j : Json) (key : String) : Except DecodeError α :=
  (j.field key).decode

end Json

end DoubleEntry
