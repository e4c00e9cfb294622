import DoubleEntry.Proofs.AmountText
import DoubleEntry.Proofs.InstantText
import DoubleEntry.Proofs.JsonStored
import DoubleEntry.Proofs.SixPlaces
import DoubleEntry.Store.Rows

/-!
# Rows are read back

A row is read as what tables keep of its value: instants come back without their nanoseconds, and
amounts as the nearest ones of six places.  Most values of the ledger hold amounts of six places,
instants of whole microseconds and JSON values of strings and numbers.  Of such values nothing is
lost in their rows but how many places an amount was given with: what is read back has all six.

## Main definitions

* `Payment.InFourDigits` and the like: the value can be read from its row.
* `Payment.kept` and the like: what tables keep of the value.
* `Payment.IsStored` and the like: a row can hold the value.
* `Payment.atSix`, `JournalEntry.atSix`: the value with its amounts at six places.

## Main results

* `PaymentRow.read_kept`, `StepRow.read_kept`, `LineRow.read_kept`, `JournalRow.read_kept`,
  `EventRow.read_kept`, `RecordRow.read_kept`: rows are read as what is kept.
* `PaymentRow.read_of`, `StepRow.read_of`, `LineRow.read_of`, `JournalRow.read_of`,
  `EventRow.read_of`, `RecordRow.read_of`: values that a row can hold are read back.
-/

namespace DoubleEntry

/-! ### Columns -/

theorem isBlank_of_isCapital {c : Char} (h : isCapital c = true) : isBlank c = false := by
  simp only [isCapital, Bool.and_eq_true, decide_eq_true_eq] at h
  have h1 : 65 ≤ c.toNat := h.1
  have h2 : c.toNat ≤ 90 := h.2
  simp only [isBlank, Bool.or_eq_false_iff, Bool.and_eq_false_iff, decide_eq_false_iff_not,
    beq_eq_false_iff_ne]
  omega

theorem trim_of_all {s : String} (h : ∀ c ∈ s.toList, isBlank c = false) : trim s = s := by
  have hdrop : ∀ cs : List Char, (∀ c ∈ cs, isBlank c = false) → cs.dropWhile isBlank = cs := by
    rintro (_ | ⟨c, cs⟩) h
    · rfl
    · rw [List.dropWhile_cons_of_neg (by simp [h c List.mem_cons_self])]
  have hrev : ∀ c ∈ s.toList.reverse, isBlank c = false := fun c hc => h c (List.mem_reverse.1 hc)
  rw [trim, trimChars, hdrop _ h, hdrop _ hrev, List.reverse_reverse, String.ofList_toList]

theorem toUpper_of_isCapital {c : Char} (h : isCapital c = true) : c.toUpper = c := by
  simp only [isCapital, Bool.and_eq_true, decide_eq_true_eq] at h
  have h2 : c.toNat ≤ 90 := h.2
  refine dif_neg ?_
  rintro ⟨h97, -⟩
  have : 97 ≤ c.toNat := h97
  omega

namespace Currency

theorem parse_code (c : Currency) : parse c.code = .ok c := by
  have hcap := List.all_eq_true.1 c.capital
  have htrim : trim c.code = c.code := trim_of_all fun x hx => isBlank_of_isCapital (hcap x hx)
  have hmap : c.code.toList.map Char.toUpper = c.code.toList :=
    (List.map_congr_left fun x hx => toUpper_of_isCapital (hcap x hx)).trans (List.map_id _)
  rw [parse, htrim, capitals, hmap, String.ofList_toList, ofCode?, dif_pos ⟨c.length_eq, c.capital⟩]

end Currency

theorem PaymentStatus.ofName_name (s : PaymentStatus) : ofName s.name = .ok s := by
  cases s <;> rfl

theorem JournalStatus.ofName_name (s : JournalStatus) : ofName s.name = .ok s := by
  cases s <;> rfl

namespace Column

@[simp] theorem uuid_toText (u : Uuid) : uuid u.toText = .ok u := by
  simp [uuid, Uuid.read, Uuid.ofText?_toText]

theorem instant_kept {i : Instant} (h : i.InFourDigits) : instant i.microText = .ok i.truncate := by
  rw [← i.microText_truncate, instant,
    Instant.ofStrictText?_microText (Instant.isWhole_truncate h.1 h.2)]

theorem optional_instant_kept {o : Option Instant} (h : ∀ i ∈ o, i.InFourDigits) :
    optional instant (o.map Instant.microText) = .ok (o.map Instant.truncate) := by
  cases o with
  | none => rfl
  | some i =>
    rw [Option.map_some, optional, instant_kept (h i rfl)]
    rfl

theorem statusCode_of_lt {n : Nat} (h : n < 65536) : statusCode n = .ok n := by
  rw [statusCode, if_neg (by omega), if_neg (by omega), Int.toNat_natCast]

theorem json_compact {j : Json} (h : j.IsStored) : json j.compact = .ok j := by
  rw [json, h]

theorem optional_map {α β : Type} {f : α → Except StoreError β} {g : β → α} {o : Option β}
    (h : ∀ b ∈ o, f (g b) = .ok b) : optional f (o.map g) = .ok o := by
  cases o with
  | none => rfl
  | some b =>
    rw [Option.map_some, optional, h b rfl]
    rfl

@[simp] theorem flag_ofFlag (b : Bool) : flag (ofFlag b) = b := by
  cases b <;> rfl

end Column

/-! ### Payments -/

namespace Payment

variable {p : Payment}

/-- The payment can be read from its row. -/
structure InFourDigits (p : Payment) : Prop where
  createdAt : p.createdAt.InFourDigits
  updatedAt : p.updatedAt.InFourDigits

/-- What tables keep of a payment. -/
def kept (p : Payment) : Payment :=
  { p with
    amount := p.amount.kept
    createdAt := p.createdAt.truncate
    updatedAt := p.updatedAt.truncate }

/-- A row can hold the payment. -/
structure IsStored (p : Payment) : Prop where
  amount : p.amount.IsStored
  createdAt : p.createdAt.IsWhole
  updatedAt : p.updatedAt.IsWhole

/-- The payment with its amount at six places. -/
def atSix (p : Payment) : Payment := { p with amount := p.amount.toAmount }

theorem IsStored.inFourDigits (h : p.IsStored) : p.InFourDigits :=
  ⟨h.createdAt.inFourDigits, h.updatedAt.inFourDigits⟩

theorem IsStored.kept_eq (h : p.IsStored) : p.kept = p.atSix := by
  rw [kept, atSix, Decimal.kept_of_unsigned h.amount.unsigned, h.createdAt.truncate_eq,
    h.updatedAt.truncate_eq]

end Payment

namespace PaymentRow

variable {p : Payment}

/-- **A payment is read from its row.** -/
theorem read_kept (h : p.InFourDigits) : read (of p) = .ok p.kept := by
  have hjournal : Column.optional Column.uuid (p.journalId.map Uuid.toText) = .ok p.journalId :=
    Column.optional_map fun u _ => Column.uuid_toText u
  simp only [read, of, Column.uuid_toText, Column.decimal_amountText_kept, Currency.parse_code,
    PaymentStatus.ofName_name, hjournal, Column.instant_kept h.createdAt,
    Column.instant_kept h.updatedAt]
  rfl

theorem read_of (h : p.IsStored) : read (of p) = .ok p.atSix := by
  rw [read_kept h.inFourDigits, h.kept_eq]

end PaymentRow

namespace PaymentStep

variable {s : PaymentStep}

/-- The step can be read from its row. -/
structure InFourDigits (s : PaymentStep) : Prop where
  details : s.details.IsStored
  attemptedAt : s.attemptedAt.InFourDigits

/-- What tables keep of a step. -/
def kept (s : PaymentStep) : PaymentStep := { s with attemptedAt := s.attemptedAt.truncate }

/-- A row can hold the step. -/
structure IsStored (s : PaymentStep) : Prop where
  details : s.details.IsStored
  attemptedAt : s.attemptedAt.IsWhole

theorem IsStored.inFourDigits (h : s.IsStored) : s.InFourDigits :=
  ⟨h.details, h.attemptedAt.inFourDigits⟩

theorem IsStored.kept_eq (h : s.IsStored) : s.kept = s := by
  rw [kept, h.attemptedAt.truncate_eq]

end PaymentStep

namespace StepRow

variable {s : PaymentStep}

theorem read_kept (h : s.InFourDigits) : read (of s) = .ok s.kept := by
  simp only [read, of, Column.uuid_toText, Column.json_compact h.details,
    Column.instant_kept h.attemptedAt]
  rfl

theorem read_of (h : s.IsStored) : read (of s) = .ok s := by
  rw [read_kept h.inFourDigits, h.kept_eq]

end StepRow

/-! ### Journals -/

namespace EntryLine

/-- A row can hold the line of a journal. -/
structure IsStored (journal : JournalId) (l : EntryLine) : Prop where
  owner : l.journalId = journal
  debit : l.debit.IsStored
  credit : l.credit.IsStored

/-- The line with its amounts at six places. -/
def atSix (l : EntryLine) : EntryLine :=
  { l with debit := l.debit.toAmount, credit := l.credit.toAmount }

/-- The line with its amounts at six places, as one of the journal that it was inserted with. -/
def kept (journal : JournalId) (l : EntryLine) : EntryLine := { l.atSix with journalId := journal }

/-- No amount of the line has a sign. -/
structure IsUnsigned (l : EntryLine) : Prop where
  debit : l.debit.negative = false
  credit : l.credit.negative = false

end EntryLine

namespace LineRow

variable {journal : JournalId} {n : Nat} {l : EntryLine}

theorem read_kept (h : l.IsUnsigned) : read (of journal n l) = .ok (l.kept journal) := by
  have hother : Column.optional Column.uuid (l.counterparty.map Uuid.toText) = .ok l.counterparty :=
    Column.optional_map fun u _ => Column.uuid_toText u
  simp only [read, of, Column.uuid_toText, GlAccount.ofCode_code, hother,
    Column.decimal_amountText h.debit, Column.decimal_amountText h.credit]
  rfl

theorem read_of (h : l.IsStored journal) : read (of journal n l) = .ok l.atSix := by
  rw [read_kept ⟨h.debit.unsigned, h.credit.unsigned⟩, EntryLine.kept, ← h.owner]
  rfl

end LineRow

namespace JournalEntry

/-- Rows can hold the journal. -/
structure IsStored (j : JournalEntry) : Prop where
  bookedAt : j.bookedAt.IsWhole
  lines : ∀ l ∈ j.lines, l.IsStored j.id
  few : j.lines.length ≤ ManualCommand.maxLines

/-- The journal with its amounts at six places. -/
def atSix (j : JournalEntry) : JournalEntry := { j with lines := j.lines.map EntryLine.atSix }

/-- What tables keep of a journal: amounts at six places, and its time to the microsecond. -/
def kept (j : JournalEntry) : JournalEntry :=
  { j with bookedAt := j.bookedAt.truncate, lines := j.lines.map (.kept j.id) }

theorem IsStored.kept_eq {j : JournalEntry} (h : j.IsStored) : j.kept = j.atSix := by
  have hlines : j.lines.map (.kept j.id) = j.lines.map EntryLine.atSix :=
    List.map_congr_left fun l hl => by rw [EntryLine.kept, ← (h.lines l hl).owner]; rfl
  rw [kept, atSix, hlines, h.bookedAt.truncate_eq]

end JournalEntry

namespace JournalRow

variable {j : JournalEntry}

theorem read_kept (h : j.bookedAt.InFourDigits) :
    read (of j) (j.lines.map (.kept j.id)) = .ok j.kept := by
  simp only [read, of, Column.uuid_toText, Column.instant_kept h, JournalStatus.ofName_name,
    Currency.parse_code]
  rfl

theorem read_of (h : j.IsStored) : read (of j) (j.lines.map EntryLine.atSix) = .ok j.atSix := by
  have hlines : j.lines.map (.kept j.id) = j.lines.map EntryLine.atSix :=
    congrArg JournalEntry.lines h.kept_eq
  rw [← hlines, read_kept h.bookedAt.inFourDigits, h.kept_eq]

end JournalRow

/-! ### Events and records -/

namespace OutboxEvent

variable {e : OutboxEvent}

/-- The event can be read from its row. -/
structure InFourDigits (e : OutboxEvent) : Prop where
  payload : e.payload.IsStored
  publishedAt : ∀ i ∈ e.publishedAt, i.InFourDigits
  processingAt : ∀ i ∈ e.processingAt, i.InFourDigits
  createdAt : e.createdAt.InFourDigits

/-- What tables keep of an event. -/
def kept (e : OutboxEvent) : OutboxEvent :=
  { e with
    publishedAt := e.publishedAt.map Instant.truncate
    processingAt := e.processingAt.map Instant.truncate
    createdAt := e.createdAt.truncate }

/-- A row can hold the event. -/
structure IsStored (e : OutboxEvent) : Prop where
  payload : e.payload.IsStored
  publishedAt : ∀ i ∈ e.publishedAt, i.IsWhole
  processingAt : ∀ i ∈ e.processingAt, i.IsWhole
  createdAt : e.createdAt.IsWhole

theorem IsStored.inFourDigits (h : e.IsStored) : e.InFourDigits where
  payload := h.payload
  publishedAt i hi := (h.publishedAt i hi).inFourDigits
  processingAt i hi := (h.processingAt i hi).inFourDigits
  createdAt := h.createdAt.inFourDigits

theorem IsStored.kept_eq (h : e.IsStored) : e.kept = e := by
  rw [kept, Instant.map_truncate h.publishedAt, Instant.map_truncate h.processingAt,
    h.createdAt.truncate_eq]

end OutboxEvent

namespace EventRow

variable {e : OutboxEvent}

theorem read_kept (h : e.InFourDigits) : read (of e) = .ok e.kept := by
  simp only [read, of, Column.uuid_toText, Column.json_compact h.payload,
    Column.optional_instant_kept h.publishedAt, Column.optional_instant_kept h.processingAt,
    Column.instant_kept h.createdAt, Column.flag_ofFlag]
  rfl

theorem read_of (h : e.IsStored) : read (of e) = .ok e := by
  rw [read_kept h.inFourDigits, h.kept_eq]

end EventRow

namespace IdempotencyRecord

variable {r : IdempotencyRecord}

/-- The record can be read from its row; its status is a word of 16 bits. -/
structure InFourDigits (r : IdempotencyRecord) : Prop where
  statusCode : r.statusCode < 65536
  createdAt : r.createdAt.InFourDigits

/-- What tables keep of a record. -/
def kept (r : IdempotencyRecord) : IdempotencyRecord := { r with createdAt := r.createdAt.truncate }

/-- A row can hold the record. -/
structure IsStored (r : IdempotencyRecord) : Prop where
  statusCode : r.statusCode < 65536
  createdAt : r.createdAt.IsWhole

theorem IsStored.inFourDigits (h : r.IsStored) : r.InFourDigits :=
  ⟨h.statusCode, h.createdAt.inFourDigits⟩

theorem IsStored.kept_eq (h : r.IsStored) : r.kept = r := by
  rw [kept, h.createdAt.truncate_eq]

end IdempotencyRecord

namespace RecordRow

variable {r : IdempotencyRecord}

theorem read_kept (h : r.InFourDigits) : read (of r) = .ok r.kept := by
  simp only [read, of, Column.statusCode_of_lt h.statusCode, Column.instant_kept h.createdAt]
  rfl

theorem read_of (h : r.IsStored) : read (of r) = .ok r := by
  rw [read_kept h.inFourDigits, h.kept_eq]

end RecordRow

end DoubleEntry
