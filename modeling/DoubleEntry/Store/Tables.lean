import DoubleEntry.Store.Memory
import DoubleEntry.Store.Rows

/-!
# The store in tables

The store in tables keeps rows in the order of their insertion. Identifiers are unique, as is the
key of a payment, and a row that names another one needs it to be there. Rows are compared and
sorted by the texts of their columns. A journal and its lines are inserted one after the other, so
that a failure leaves those that were inserted before it; a unit of work that fails takes them back.

## Main definitions

* `Tables`: the store. `Tables.call`: its calls.
* `Tables.isIntact`: the rules that the rows keep.
-/

namespace DoubleEntry

/-- A store that keeps rows. -/
structure Tables where
  payments : List PaymentRow
  steps : List StepRow
  journals : List JournalRow
  lines : List LineRow
  outbox : List EventRow
  records : List RecordRow
deriving DecidableEq

namespace Tables

/-- Tables without rows. -/
def empty : Tables := ⟨[], [], [], [], [], []⟩

/-- No text occurs twice. -/
def areDistinct : List String → Bool
  | [] => true
  | s :: ss => !ss.contains s && areDistinct ss

/-- The rules that the rows keep: what must be unique is, each row that another one names is there,
and journals have a status. -/
def isIntact (t : Tables) : Bool :=
  areDistinct (t.payments.map (·.id)) && areDistinct (t.payments.map (·.idempotencyKey)) &&
    areDistinct (t.journals.map (·.id)) && areDistinct (t.lines.map (·.id)) &&
    areDistinct (t.outbox.map (·.id)) && areDistinct (t.records.map (·.key)) &&
    (t.steps.all fun s => t.payments.any fun p => p.id = s.paymentId) &&
    (t.lines.all fun l => t.journals.any fun j => j.id = l.journalId) &&
    t.journals.all fun j => (JournalStatus.names.lookup j.status).isSome

/-- A refusal because a column must be unique. -/
def notUnique {α : Type} (column : String) : Outcome α :=
  Halt.refuse (.conflict ("UNIQUE constraint failed: " ++ column))

/-- A refusal because a row that is named is not there. -/
def noParent {α : Type} : Outcome α :=
  Halt.refuse (.database
    "error returned from database: (code: 787) FOREIGN KEY constraint failed")

/-- Inserts a payment; its key is looked at before its identifier. -/
def insertPayment (r : PaymentRow) (t : Tables) : Outcome Tables :=
  if t.payments.any fun q => q.idempotencyKey = r.idempotencyKey then
    notUnique "payments.idempotency_key"
  else if t.payments.any fun q => q.id = r.id then notUnique "payments.id"
  else .ok { t with payments := t.payments ++ [r] }

/-- Inserts a step of a payment that is there. -/
def insertStep (r : StepRow) (t : Tables) : Outcome Tables :=
  if t.payments.any fun p => p.id = r.paymentId then .ok { t with steps := t.steps ++ [r] }
  else noParent

/-- Inserts a journal without its lines. -/
def insertHead (r : JournalRow) (t : Tables) : Outcome Tables :=
  if t.journals.any fun q => q.id = r.id then notUnique "journal_entries.id"
  else .ok { t with journals := t.journals ++ [r] }

/-- Inserts a line. -/
def insertLine (r : LineRow) (t : Tables) : Outcome Tables :=
  if t.lines.any fun q => q.id = r.id then notUnique "entry_lines.id"
  else .ok { t with lines := t.lines ++ [r] }

/-- Inserts an event. -/
def insertEvent (r : EventRow) (t : Tables) : Outcome Tables :=
  if t.outbox.any fun q => q.id = r.id then notUnique "outbox_events.id"
  else .ok { t with outbox := t.outbox ++ [r] }

/-- Inserts a record. -/
def insertRecord (r : RecordRow) (t : Tables) : Outcome Tables :=
  if t.records.any fun q => q.key = r.key then notUnique "idempotency_records.key"
  else .ok { t with records := t.records ++ [r] }

/-- The tables after a statement, which changes nothing if it fails. -/
def after (t : Tables) : Outcome Tables → Outcome Unit × Tables
  | .ok t => (.ok (), t)
  | .error h => (.error h, t)

/-- Inserts the lines of a journal from an index on, until one fails. -/
def insertLines (journal : JournalId) :
    (lineNo : Nat) → List EntryLine → Tables → Outcome Unit × Tables
  | _, [], t => (.ok (), t)
  | n, l :: ls, t =>
    match t.insertLine (.of journal n l) with
    | .ok t => insertLines journal (n + 1) ls t
    | .error h => (.error h, t)

/-- Inserts a balanced journal, and its lines after it. -/
def insertJournal (j : JournalEntry) (t : Tables) : Outcome Unit × Tables :=
  match Halt.within StoreError.domain (ensureBalanced j.lines) with
  | .error h => (.error h, t)
  | .ok () =>
    match t.insertHead (.of j) with
    | .ok t => insertLines j.id 0 j.lines t
    | .error h => (.error h, t)

/-- Inserts a row. -/
def insert : Row → Tables → Outcome Unit × Tables
  | .payment p, t => t.after (t.insertPayment (.of p))
  | .step s, t => t.after (t.insertStep (.of s))
  | .journal j, t => t.insertJournal j
  | .event e, t => t.after (t.insertEvent (.of e))
  | .record r, t => t.after (t.insertRecord (.of r))

/-- Reads the first row that is found, if there is one. -/
def readFirst {α β : Type} (f : α → Except StoreError β) (row : Option α) : Outcome (Option β) :=
  Halt.refusing (Column.optional f row)

/-- Texts in the order of their characters. -/
def textLe (a b : String) : Bool := !decide (b < a)

/-- The steps of a payment in the order of their times. -/
def stepsOf (id : PaymentId) (t : Tables) : Outcome (List PaymentStep) :=
  Halt.refusing <|
    ((t.steps.filter fun s => s.paymentId = id.toText).mergeSort fun a b =>
      textLe a.attemptedAt b.attemptedAt).mapM StepRow.read

/-- The lines of a journal in their order. -/
def linesOf (journal : String) (t : Tables) : Except StoreError (List EntryLine) :=
  ((t.lines.filter fun l => l.journalId = journal).mergeSort fun a b =>
    decide (a.lineNo ≤ b.lineNo)).mapM LineRow.read

/-- Reads a journal; its lines are read first. -/
def readJournal (t : Tables) (r : JournalRow) : Except StoreError JournalEntry := do
  r.read (← t.linesOf r.id)

/-- The later journal goes first; of two at one time, the one with the larger identifier. -/
def laterFirst (a b : JournalRow) : Bool :=
  decide (b.bookedAt < a.bookedAt) || (a.bookedAt == b.bookedAt && textLe b.id a.id)

/-- The journal names the account and was booked within the span of time. -/
def concerns (l : Listing) (t : Tables) (r : JournalRow) : Bool :=
  textLe l.start.microText r.bookedAt && textLe r.bookedAt l.stop.microText &&
    t.lines.any fun line =>
      line.journalId = r.id && line.counterpartyRef = some l.account.toText

/-- A page of the journals that name an account, the latest first. -/
def activity (l : Listing) (t : Tables) : Outcome (List JournalEntry) :=
  Halt.refusing <|
    ((((t.journals.filter (concerns l t)).mergeSort laterFirst).drop
      (Memory.pageStart l.page l.size)).take l.size).mapM t.readJournal

/-- The event is free: not published, and not claimed since the given time. -/
def isFree (stale : String) (r : EventRow) : Bool :=
  r.published == 0 && (r.processing == 0 || r.processingAt.all fun at_ => decide (at_ < stale))

/-- The older event goes first; of two of one time, the one with the smaller identifier. -/
def olderFirst (a b : EventRow) : Bool :=
  decide (a.createdAt < b.createdAt) || (a.createdAt == b.createdAt && textLe a.id b.id)

/-- The row with the claim of a worker. -/
def claimed (owner : String) (now : Instant) (r : EventRow) : EventRow :=
  { r with processing := 1, processingOwner := some owner, processingAt := some now.microText }

/-- Changes the events of some identifiers. -/
def update (ids : List String) (f : EventRow → EventRow) (t : Tables) : Tables :=
  { t with outbox := t.outbox.map fun r => if ids.contains r.id then f r else r }

/-- Claims the oldest free events for a worker. They are read in the order of their identifiers and
answered in the order of their times. -/
def claim (limit : Nat) (owner : String) (now : Instant) (ttl : Int) (t : Tables) :
    Outcome (List OutboxEvent) × Tables :=
  match now.shift (-ttl) with
  | none => (.error .crashed, t)
  | some stale =>
    let ids := (((t.outbox.filter (isFree stale.microText)).mergeSort olderFirst).take limit).map
      EventRow.id
    let t := t.update ids (claimed owner now)
    let rows := (t.outbox.filter fun r => ids.contains r.id).mergeSort fun a b => textLe a.id b.id
    match rows.mapM EventRow.read with
    | .ok events =>
      (.ok (events.mergeSort fun a b => decide (a.createdAt ≤ b.createdAt)), t)
    | .error e => (Halt.refuse e, t)

/-- The row without a claim. -/
def unclaimed (r : EventRow) : EventRow :=
  { r with processing := 0, processingOwner := none, processingAt := none }

/-- The row as published. -/
def publishedAt (now : Instant) (r : EventRow) : EventRow :=
  { unclaimed r with published := 1, publishedAt := some now.microText }

/-- The worker has a claim on the row. -/
def isHeldBy (owner : String) (r : EventRow) : Bool :=
  r.published == 0 && r.processingOwner = some owner

/-- Changes the rows of one identifier after another that meet a condition, and counts them. -/
def updateEach (p : EventRow → Bool) (f : EventRow → EventRow) :
    List EventId → Tables → Nat × Tables
  | [], t => (0, t)
  | id :: ids, t =>
    let hit := fun r : EventRow => r.id = id.toText && p r
    let count := (t.outbox.filter hit).length
    let (n, t) :=
      updateEach p f ids { t with outbox := t.outbox.map fun r => if hit r then f r else r }
    (count + n, t)

/-- Carries out a call. -/
def call : (c : Call) → Tables → Outcome c.Answer × Tables
  | .insert row, t => t.insert row
  | .payment id, t => (readFirst PaymentRow.read (t.payments.find? fun p => p.id = id.toText), t)
  | .paymentOfKey key, t =>
    (readFirst PaymentRow.read (t.payments.find? fun p => p.idempotencyKey = key), t)
  | .steps id, t => (t.stepsOf id, t)
  | .journal id, t => (readFirst t.readJournal (t.journals.find? fun j => j.id = id.toText), t)
  | .activity l, t => (t.activity l, t)
  | .event id, t => (readFirst EventRow.read (t.outbox.find? fun e => e.id = id.toText), t)
  | .claim limit owner now ttl, t => t.claim limit owner now ttl
  | .markPublished ids now, t =>
    let (n, t) := updateEach (fun _ => true) (publishedAt now) ids t
    (.ok n, t)
  | .releaseClaims ids owner, t =>
    let (n, t) := updateEach (isHeldBy owner) unclaimed ids t
    (.ok n, t)
  | .record key, t => (readFirst RecordRow.read (t.records.find? fun r => r.key = key), t)

instance : Backend Tables := ⟨call⟩

end Tables

end DoubleEntry
