import DoubleEntry.Store.Basic

/-!
# Tables seen from outside

Tables are cells in named columns to whoever looks at them without the ledger. A cell can be
overwritten as long as the tables stay intact, and then a row may no longer be readable. The
contents of a store are its values in the order of their insertion, as far as all rows can be read.

## Main definitions

* `Cell`, `CellColumn`: cells, and the columns of a kind of rows.
* `Tables.overwrite`: overwrites a column of the rows with a key.
* `Database.contents`: the values in a store.
-/

namespace DoubleEntry

/-- The content of a cell. -/
inductive Cell where
  | null
  | int (n : Int)
  | text (s : String)
deriving DecidableEq

namespace Cell

/-- The content of a cell for texts, where a number is kept as its text. -/
def text? : Cell → Option String
  | text s => some s
  | int n => some (toString n)
  | null => none

/-- The content of a cell for numbers, where the text of a number is kept as the number. -/
def int? : Cell → Option Int
  | int n => some n
  | text s => (natOfDigits? s.toList).map Int.ofNat
  | null => none

end Cell

/-- A column of rows: its name, the cell of a row, and the row with another cell, if that may be. -/
structure CellColumn (ρ : Type) where
  name : String
  get : ρ → Cell
  set? : Cell → ρ → Option ρ

namespace CellColumn

variable {ρ : Type}

/-- A column of texts. -/
def text (name : String) (get : ρ → String) (set : String → ρ → ρ) : CellColumn ρ :=
  ⟨name, fun r => .text (get r), fun c r => c.text?.map fun s => set s r⟩

/-- A column of texts that may be missing. -/
def optText (name : String) (get : ρ → Option String) (set : Option String → ρ → ρ) :
    CellColumn ρ :=
  ⟨name, fun r => ((get r).map Cell.text).getD .null, fun c r => some (set c.text? r)⟩

/-- A column of numbers. -/
def int (name : String) (get : ρ → Int) (set : Int → ρ → ρ) : CellColumn ρ :=
  ⟨name, fun r => .int (get r), fun c r => c.int?.map fun n => set n r⟩

/-- Overwrites a column of the rows whose key column holds a text; the count of these rows. -/
def overwrite (columns : List (CellColumn ρ)) (column : String) (value : Cell)
    (keyColumn key : String) (rows : List ρ) : Option (Nat × List ρ) := do
  let keys ← columns.find? fun c => c.name = keyColumn
  let target ← columns.find? fun c => c.name = column
  let isMeant := fun r => keys.get r = .text key
  let changed ← rows.mapM fun r => if isMeant r then target.set? value r else some r
  return ((rows.filter isMeant).length, changed)

end CellColumn

open CellColumn

/-- The columns of payments. -/
def PaymentRow.columns : List (CellColumn PaymentRow) := [
  text "id" (·.id) fun s r => { r with id := s },
  text "idempotency_key" (·.idempotencyKey) fun s r => { r with idempotencyKey := s },
  text "source_account_id" (·.sourceAccountId) fun s r => { r with sourceAccountId := s },
  text "destination_account_id" (·.destinationAccountId) fun s r =>
    { r with destinationAccountId := s },
  text "amount" (·.amount) fun s r => { r with amount := s },
  text "currency" (·.currency) fun s r => { r with currency := s },
  text "status" (·.status) fun s r => { r with status := s },
  optText "customer_id" (·.customerId) fun s r => { r with customerId := s },
  text "hold_id" (·.holdId) fun s r => { r with holdId := s },
  optText "journal_id" (·.journalId) fun s r => { r with journalId := s },
  text "created_at" (·.createdAt) fun s r => { r with createdAt := s },
  text "updated_at" (·.updatedAt) fun s r => { r with updatedAt := s }]

/-- The columns of steps. -/
def StepRow.columns : List (CellColumn StepRow) := [
  text "payment_id" (·.paymentId) fun s r => { r with paymentId := s },
  text "step" (·.step) fun s r => { r with step := s },
  text "state" (·.state) fun s r => { r with state := s },
  text "details_json" (·.details) fun s r => { r with details := s },
  text "attempted_at" (·.attemptedAt) fun s r => { r with attemptedAt := s }]

/-- The columns of journals. -/
def JournalRow.columns : List (CellColumn JournalRow) := [
  text "id" (·.id) fun s r => { r with id := s },
  text "external_ref" (·.externalRef) fun s r => { r with externalRef := s },
  text "booked_at" (·.bookedAt) fun s r => { r with bookedAt := s },
  text "created_by" (·.createdBy) fun s r => { r with createdBy := s },
  text "status" (·.status) fun s r => { r with status := s },
  text "currency" (·.currency) fun s r => { r with currency := s }]

/-- The columns of lines. -/
def LineRow.columns : List (CellColumn LineRow) := [
  text "id" (·.id) fun s r => { r with id := s },
  text "journal_id" (·.journalId) fun s r => { r with journalId := s },
  int "line_no" (·.lineNo) fun n r => { r with lineNo := n },
  text "gl_account_id" (·.glAccountId) fun s r => { r with glAccountId := s },
  text "gl_account_code" (·.glAccountCode) fun s r => { r with glAccountCode := s },
  optText "counterparty_ref" (·.counterpartyRef) fun s r => { r with counterpartyRef := s },
  text "debit" (·.debit) fun s r => { r with debit := s },
  text "credit" (·.credit) fun s r => { r with credit := s }]

/-- The columns of events. -/
def EventRow.columns : List (CellColumn EventRow) := [
  text "id" (·.id) fun s r => { r with id := s },
  text "aggregate_type" (·.aggregateType) fun s r => { r with aggregateType := s },
  text "aggregate_id" (·.aggregateId) fun s r => { r with aggregateId := s },
  text "event_type" (·.eventType) fun s r => { r with eventType := s },
  text "payload_json" (·.payload) fun s r => { r with payload := s },
  int "published" (·.published) fun n r => { r with published := n },
  optText "published_at" (·.publishedAt) fun s r => { r with publishedAt := s },
  int "processing" (·.processing) fun n r => { r with processing := n },
  optText "processing_owner" (·.processingOwner) fun s r => { r with processingOwner := s },
  optText "processing_at" (·.processingAt) fun s r => { r with processingAt := s },
  text "created_at" (·.createdAt) fun s r => { r with createdAt := s }]

/-- The columns of records. -/
def RecordRow.columns : List (CellColumn RecordRow) := [
  text "key" (·.key) fun s r => { r with key := s },
  text "operation" (·.operation) fun s r => { r with operation := s },
  text "response_json" (·.response) fun s r => { r with response := s },
  int "status_code" (·.statusCode) fun n r => { r with statusCode := n },
  text "created_at" (·.createdAt) fun s r => { r with createdAt := s }]

namespace Tables

/-- Overwrites a column of the rows of a table whose key column holds a text, whatever comes of it;
the count of these rows. -/
def overwriteRows (table column : String) (value : Cell) (keyColumn key : String) (t : Tables) :
    Option (Nat × Tables) :=
  match table with
  | "payments" =>
    (CellColumn.overwrite PaymentRow.columns column value keyColumn key t.payments).map
      fun (n, rows) => (n, { t with payments := rows })
  | "payment_steps" => (CellColumn.overwrite StepRow.columns column value keyColumn key t.steps).map
      fun (n, rows) => (n, { t with steps := rows })
  | "journal_entries" =>
    (CellColumn.overwrite JournalRow.columns column value keyColumn key t.journals).map
      fun (n, rows) => (n, { t with journals := rows })
  | "entry_lines" => (CellColumn.overwrite LineRow.columns column value keyColumn key t.lines).map
      fun (n, rows) => (n, { t with lines := rows })
  | "outbox_events" =>
    (CellColumn.overwrite EventRow.columns column value keyColumn key t.outbox).map
      fun (n, rows) => (n, { t with outbox := rows })
  | "idempotency_records" =>
    (CellColumn.overwrite RecordRow.columns column value keyColumn key t.records).map
      fun (n, rows) => (n, { t with records := rows })
  | _ => none

/-- Overwrites a column of the rows of a table whose key column holds a text, if the tables stay
intact; the count of these rows. -/
def overwrite (table column : String) (value : Cell) (keyColumn key : String) (t : Tables) :
    Option (Nat × Tables) :=
  (t.overwriteRows table column value keyColumn key).filter fun (_, t) => t.isIntact

/-- The values of all rows. -/
def contents (t : Tables) : Except StoreError Memory := do
  let payments ← t.payments.mapM PaymentRow.read
  let steps ← t.steps.mapM StepRow.read
  let journals ← t.journals.mapM t.readJournal
  let outbox ← t.outbox.mapM EventRow.read
  let records ← t.records.mapM RecordRow.read
  return ⟨payments, steps, journals, outbox, records⟩

end Tables

/-- The values in a store. -/
def Database.contents : Database → Except StoreError Memory
  | memory m => .ok m
  | tables t => t.contents
  | bare => .ok .empty

end DoubleEntry
