import DoubleEntry.Journal.Basic

/-!
# Journals as JSON values

## Main definitions

* `EntryLine.toJson`, `EntryLine.decoder`: lines. `JournalEntry.toJson`, `JournalEntry.decoder`:
  journals.
-/

namespace DoubleEntry

namespace Decimal

/-- The decimal as a JSON value: its text. -/
def toJson (d : Decimal) : Json := .str d.toText

end Decimal

instance : ToJson Decimal := ⟨Decimal.toJson⟩

namespace JournalStatus

/-- The status as a JSON value. -/
def toJson (s : JournalStatus) : Json := .str s.name

/-- Reads a status from its name. -/
def decoder : Decoder JournalStatus := Decoder.variant names

end JournalStatus

instance : ToJson JournalStatus := ⟨JournalStatus.toJson⟩
instance : FromJson JournalStatus := ⟨JournalStatus.decoder⟩

namespace EntryLine

/-- The line as a JSON value. -/
def toJson (l : EntryLine) : Json := .obj [
  ("id", l.id.toJson),
  ("journal_id", l.journalId.toJson),
  ("gl_account", l.glAccount.toJson),
  ("counterparty", Json.option Uuid.toJson l.counterparty),
  ("debit", l.debit.toJson),
  ("credit", l.credit.toJson)]

/-- Reads a line. -/
def decoder : Decoder EntryLine := Fields.decoder "EntryLine" <|
  EntryLine.mk <$> .required "id" Uuid.decoder <*> .required "journal_id" Uuid.decoder
    <*> .required "gl_account" GlAccount.decoder <*> .optional "counterparty" Uuid.decoder
    <*> .required "debit" Decoder.decimal <*> .required "credit" Decoder.decimal

end EntryLine

instance : ToJson EntryLine := ⟨EntryLine.toJson⟩
instance : FromJson EntryLine := ⟨EntryLine.decoder⟩

namespace JournalEntry

/-- The journal as a JSON value. -/
def toJson (j : JournalEntry) : Json := .obj [
  ("id", j.id.toJson),
  ("external_ref", .str j.externalRef),
  ("booked_at", j.bookedAt.toJson),
  ("created_by", .str j.createdBy),
  ("status", j.status.toJson),
  ("currency", j.currency.toJson),
  ("lines", .arr (j.lines.map EntryLine.toJson))]

/-- Reads a journal; whether it is balanced is not asked. -/
def decoder : Decoder JournalEntry := Fields.decoder "JournalEntry" <|
  JournalEntry.mk <$> .required "id" Uuid.decoder <*> .required "external_ref" Decoder.text
    <*> .required "booked_at" Instant.decoder <*> .required "created_by" Decoder.text
    <*> .required "status" JournalStatus.decoder <*> .required "currency" Currency.decoder
    <*> .required "lines" (Decoder.list EntryLine.decoder)

end JournalEntry

instance : ToJson JournalEntry := ⟨JournalEntry.toJson⟩
instance : FromJson JournalEntry := ⟨JournalEntry.decoder⟩

end DoubleEntry
