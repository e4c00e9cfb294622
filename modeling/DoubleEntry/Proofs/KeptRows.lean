import DoubleEntry.Proofs.ReadBack
import DoubleEntry.Proofs.SixPlaces

/-!
# What tables keep

A row that was accepted is read back: a payment, a step, a journal with its lines, an event and a
record.  Its instants come back without their nanoseconds, its amounts as the nearest ones of six
places, and the lines of a journal in their order, as lines of that journal.  What comes back is
kept as it is, if it is written and read again.

## Main definitions

* `Row.kept`: what tables keep of a row.
* `Row.InFourDigits`: the row can be read.
* `Row.reread`: the value that is read from the row of a value.
* `Tables.Answers`: the value is found in the tables.

## Main results

* `Row.reread_eq`: a value is read from its row as what is kept of it.
* `Row.reread_kept`: a second time nothing is lost.
* `Tables.insert_kept`: a row that was accepted is read back.
-/

namespace DoubleEntry

/-! ### Values -/

theorem Payment.kept_kept (p : Payment) : p.kept.kept = p.kept := by
  simp [kept, Decimal.kept_kept]

theorem PaymentStep.kept_kept (s : PaymentStep) : s.kept.kept = s.kept := by
  simp [kept]

theorem EntryLine.kept_kept {journal : JournalId} {l : EntryLine} (h : l.IsUnsigned) :
    (l.kept journal).kept journal = l.kept journal := by
  have htwice {d : Decimal} (hd : d.negative = false) : d.toAmount.toAmount = d.toAmount := by
    have h := d.kept_kept
    rwa [Decimal.kept_of_unsigned hd, Decimal.kept_of_unsigned (Decimal.unsigned_toAmount hd)] at h
  simp [kept, atSix, htwice h.debit, htwice h.credit]

theorem EntryLine.isUnsigned_kept {l : EntryLine} (h : l.IsUnsigned) (journal : JournalId) :
    (l.kept journal).IsUnsigned :=
  ⟨Decimal.unsigned_toAmount h.debit, Decimal.unsigned_toAmount h.credit⟩

theorem JournalEntry.kept_kept {j : JournalEntry} (h : ∀ l ∈ j.lines, l.IsUnsigned) :
    j.kept.kept = j.kept := by
  have hlines : (j.lines.map (EntryLine.kept j.id)).map (EntryLine.kept j.id) =
      j.lines.map (EntryLine.kept j.id) := by
    rw [List.map_map]
    exact List.map_congr_left fun l hl => EntryLine.kept_kept (h l hl)
  rw [JournalEntry.kept, JournalEntry.mk.injEq]
  exact ⟨rfl, rfl, Instant.truncate_truncate _, rfl, rfl, rfl, hlines⟩

theorem OutboxEvent.kept_kept (e : OutboxEvent) : e.kept.kept = e.kept := by
  simp [kept, Function.comp_def]

theorem IdempotencyRecord.kept_kept (r : IdempotencyRecord) : r.kept.kept = r.kept := by
  simp [kept]

/-! ### Rows -/

namespace Row

/-- What tables keep of a row. -/
def kept : Row → Row
  | payment p => payment p.kept
  | step s => step s.kept
  | journal j => journal j.kept
  | event e => event e.kept
  | record r => record r.kept

/-- Every instant of the row has a year of four digits, and its JSON value is read as it is
printed. -/
def InFourDigits : Row → Prop
  | payment p => p.InFourDigits
  | step s => s.InFourDigits
  | journal j => j.bookedAt.InFourDigits
  | event e => e.InFourDigits
  | record r => r.InFourDigits

/-- The lines of a row have no signs. -/
def IsUnsigned : Row → Prop
  | journal j => ∀ l ∈ j.lines, l.IsUnsigned
  | _ => True

/-- The amounts of a row, those of a line after those of the line before it. -/
def amounts : Row → List Decimal
  | payment p => [p.amount]
  | journal j => j.lines.flatMap fun l => [l.debit, l.credit]
  | _ => []

/-- The value that is read from the row of a value: the text layout is written and read. -/
def reread : Row → Except StoreError Row
  | payment p => payment <$> PaymentRow.read (.of p)
  | step s => step <$> StepRow.read (.of s)
  | journal j => do return journal (← JournalRow.read (.of j) (← j.lineRows.mapM LineRow.read))
  | event e => event <$> EventRow.read (.of e)
  | record r => record <$> RecordRow.read (.of r)

variable {row : Row}

/-- **A value is read from its row** as what tables keep of it. -/
theorem reread_eq (h : row.InFourDigits) (hu : row.IsUnsigned) : row.reread = .ok row.kept := by
  cases row with
  | payment p => rw [reread, PaymentRow.read_kept h]; rfl
  | step s => rw [reread, StepRow.read_kept h]; rfl
  | journal j =>
    have hlines : j.lineRows.mapM LineRow.read = .ok (j.lines.map (.kept j.id)) :=
      Tables.mapM_lineRows fun l hl _ => LineRow.read_kept (hu l hl)
    simp only [reread, hlines, bind, Except.bind, JournalRow.read_kept h]
    rfl
  | event e => rw [reread, EventRow.read_kept h]; rfl
  | record r => rw [reread, RecordRow.read_kept h]; rfl

/-- Nothing keeps what tables keep from being written again. -/
theorem InFourDigits.kept (h : row.InFourDigits) : row.kept.InFourDigits := by
  have htruncate {o : Option Instant} (ho : ∀ i ∈ o, i.InFourDigits) :
      ∀ i ∈ o.map Instant.truncate, i.InFourDigits := by
    intro i hi
    obtain ⟨k, hk, rfl⟩ := Option.mem_map.1 hi
    exact (ho k hk).truncate
  cases row with
  | payment p => exact ⟨h.createdAt.truncate, h.updatedAt.truncate⟩
  | step s => exact ⟨h.details, h.attemptedAt.truncate⟩
  | journal j => exact Instant.InFourDigits.truncate h
  | event e =>
    exact ⟨h.payload, htruncate h.publishedAt, htruncate h.processingAt, h.createdAt.truncate⟩
  | record r => exact ⟨h.statusCode, h.createdAt.truncate⟩

theorem IsUnsigned.kept (h : row.IsUnsigned) : row.kept.IsUnsigned := by
  cases row with
  | journal j => exact List.forall_mem_map.2 fun l hl => EntryLine.isUnsigned_kept (h l hl) j.id
  | _ => trivial

theorem kept_kept (h : row.IsUnsigned) : row.kept.kept = row.kept := by
  cases row with
  | payment p => exact congrArg payment p.kept_kept
  | step s => exact congrArg step s.kept_kept
  | journal j => exact congrArg journal (JournalEntry.kept_kept h)
  | event e => exact congrArg event e.kept_kept
  | record r => exact congrArg record r.kept_kept

/-- **What tables keep is kept as it is**, when it is written and read again. -/
theorem reread_kept (h : row.InFourDigits) (hu : row.IsUnsigned) :
    row.kept.reread = .ok row.kept := by
  rw [reread_eq h.kept hu.kept, kept_kept hu]

theorem amounts_kept (hu : row.IsUnsigned) : row.kept.amounts = row.amounts.map Decimal.kept := by
  cases row with
  | journal j =>
    simp only [kept, amounts, JournalEntry.kept, List.flatMap_map, List.map_flatMap]
    refine List.flatMap_congr fun l hl => ?_
    rw [List.map_cons, List.map_singleton, Decimal.kept_of_unsigned (hu l hl).debit,
      Decimal.kept_of_unsigned (hu l hl).credit]
    rfl
  | _ => rfl

end Row

/-! ### Tables -/

namespace Tables

/-- The value is found in the tables: a payment by its identifier and by its key, a step among those
of its payment, as long as all of these can be read, and everything else by its identifier. -/
def Answers (t : Tables) : Row → Prop
  | .payment p => t.call (.payment p.id) = (.ok (some p), t) ∧
      t.call (.paymentOfKey p.idempotencyKey) = (.ok (some p), t)
  | .step s => (∀ r ∈ t.steps, r.paymentId = s.paymentId.toText → ∃ s', r.read = .ok s') →
      ∃ steps : List PaymentStep, t.call (.steps s.paymentId) = (.ok steps, t) ∧ s ∈ steps
  | .journal j => t.call (.journal j.id) = (.ok (some j), t)
  | .event e => t.call (.event e.id) = (.ok (some e), t)
  | .record r => t.call (.record r.key) = (.ok (some r), t)

variable {t t' : Tables}

theorem find?_concat {α : Type} {p : α → Bool} {as : List α} {a : α} (hfresh : as.any p = false)
    (ha : p a = true) : (as ++ [a]).find? p = some a := by
  have hnone : as.find? p = none := List.find?_eq_none.2 fun b hb => by
    simpa using List.any_eq_false.1 hfresh b hb
  rw [List.find?_append, hnone, Option.none_or, List.find?_singleton, if_pos ha]

theorem readFirst_some {α β : Type} {f : α → Except StoreError β} {a : α} {b : β}
    (h : f a = .ok b) : readFirst f (some a) = .ok (some b) := by
  rw [readFirst, Column.optional, h]
  rfl

theorem exists_mapM_eq_ok {α β : Type} {f : α → Except StoreError β} {rows : List α}
    (h : ∀ r ∈ rows, ∃ b, f r = .ok b) :
    ∃ bs, rows.mapM f = .ok bs ∧ ∀ r ∈ rows, ∀ b, f r = .ok b → b ∈ bs := by
  induction rows with
  | nil => exact ⟨[], rfl, fun _ hr => absurd hr List.not_mem_nil⟩
  | cons r rows ih =>
    obtain ⟨b, hb⟩ := h r List.mem_cons_self
    obtain ⟨bs, hbs, hmem⟩ := ih fun r' hr' => h r' (List.mem_cons_of_mem r hr')
    refine ⟨b :: bs, by rw [List.mapM_cons, hb, hbs]; rfl, List.forall_mem_cons.2 ⟨?_, ?_⟩⟩
    · intro b' hb'
      obtain rfl : b = b' := Except.ok.inj (hb.symm.trans hb')
      exact List.mem_cons_self
    · exact fun r' hr' b' hb' => List.mem_cons_of_mem b (hmem r' hr' b' hb')

theorem answers_payment {p : Payment} (hp : p.InFourDigits)
    (h : t.insertPayment (.of p) = .ok t') : t'.Answers (.payment p.kept) := by
  unfold insertPayment at h
  split_ifs at h with hkey hid
  · cases h
  · cases h
  · cases h
    have hkey' := find?_concat (a := PaymentRow.of p) (Bool.eq_false_iff.2 hkey) (by simp)
    have hid' := find?_concat (a := PaymentRow.of p) (Bool.eq_false_iff.2 hid) (by simp)
    have hread := readFirst_some (PaymentRow.read_kept hp)
    refine ⟨congrArg (·, _) ?_, congrArg (·, _) ?_⟩
    · exact (congrArg (readFirst PaymentRow.read) hid').trans hread
    · exact (congrArg (readFirst PaymentRow.read) hkey').trans hread

theorem answers_step {s : PaymentStep} (hs : s.InFourDigits)
    (h : t.insertStep (.of s) = .ok t') : t'.Answers (.step s.kept) := by
  unfold insertStep at h
  split_ifs at h
  · cases h
    intro hall
    obtain ⟨rows, hrows⟩ : ∃ rows, rows =
        ((t.steps ++ [StepRow.of s]).filter fun r => r.paymentId = s.paymentId.toText).mergeSort
          fun a b => textLe a.attemptedAt b.attemptedAt := ⟨_, rfl⟩
    have hmem (r : StepRow) : r ∈ rows ↔
        r ∈ t.steps ++ [StepRow.of s] ∧ r.paymentId = s.paymentId.toText := by
      rw [hrows, List.mem_mergeSort, List.mem_filter, decide_eq_true_iff]
    obtain ⟨steps, hread, hsteps⟩ := exists_mapM_eq_ok (f := StepRow.read) fun r hr =>
      hall r ((hmem r).1 hr).1 ((hmem r).1 hr).2
    have hanswer : stepsOf s.paymentId { t with steps := t.steps ++ [.of s] } = .ok steps := by
      rw [stepsOf, ← hrows, hread]
      rfl
    refine ⟨steps, congrArg (·, _) hanswer, hsteps (.of s) ?_ _ (StepRow.read_kept hs)⟩
    exact (hmem _).2 ⟨List.mem_append_right _ (List.mem_singleton_self _), rfl⟩
  · cases h

theorem answers_event {e : OutboxEvent} (he : e.InFourDigits)
    (h : t.insertEvent (.of e) = .ok t') : t'.Answers (.event e.kept) := by
  unfold insertEvent at h
  split_ifs at h with hid
  · cases h
  · cases h
    have hid' := find?_concat (a := EventRow.of e) (Bool.eq_false_iff.2 hid) (by simp)
    exact congrArg (·, _) ((congrArg (readFirst EventRow.read) hid').trans
      (readFirst_some (EventRow.read_kept he)))

theorem answers_record {r : IdempotencyRecord} (hr : r.InFourDigits)
    (h : t.insertRecord (.of r) = .ok t') : t'.Answers (.record r.kept) := by
  unfold insertRecord at h
  split_ifs at h with hkey
  · cases h
  · cases h
    have hkey' := find?_concat (a := RecordRow.of r) (Bool.eq_false_iff.2 hkey) (by simp)
    exact congrArg (·, _) ((congrArg (readFirst RecordRow.read) hkey').trans
      (readFirst_some (RecordRow.read_kept hr)))

theorem eq_ok_of_after {o : Outcome Tables} (h : t.after o = (.ok (), t')) : o = .ok t' := by
  cases o with
  | error e => cases h
  | ok t => cases h; rfl

/-- **A row that was accepted is found**, and the lines of a journal have no signs. -/
theorem answers_kept {row : Row} (hrow : row.InFourDigits) (ht : t.Parented)
    (h : t.call (.insert row) = (.ok (), t')) : row.IsUnsigned ∧ t'.Answers row.kept := by
  cases row with
  | payment p => exact ⟨trivial, answers_payment hrow (eq_ok_of_after h)⟩
  | step s => exact ⟨trivial, answers_step hrow (eq_ok_of_after h)⟩
  | journal j =>
    obtain ⟨hbalanced, hholds⟩ := holds_of_insert ht h
    have hu := isUnsigned_of_balanced hbalanced
    exact ⟨hu, hholds.call_journal hrow hu⟩
  | event e => exact ⟨trivial, answers_event hrow (eq_ok_of_after h)⟩
  | record r => exact ⟨trivial, answers_record hrow (eq_ok_of_after h)⟩

/-- **A row that was accepted is read back**, whatever was done to the tables before: it is found,
also by the text layout alone, each amount is the nearest one of six places, and one of six places
or fewer the number that it was.  What is read back is kept as it is. -/
theorem insert_kept {cs : List Call} {row : Row} (hrow : row.InFourDigits)
    (h : (empty.afterCalls cs).call (.insert row) = (.ok (), t)) :
    t.Answers row.kept ∧ row.reread = .ok row.kept ∧ row.kept.reread = .ok row.kept ∧
      List.Forall₂ (fun d e => Decimal.IsNearest d e ∧
        (d.places ≤ Decimal.amountPlaces → e.sameValue d = true)) row.amounts row.kept.amounts := by
  obtain ⟨hu, hanswers⟩ := answers_kept hrow (parented_afterCalls cs) h
  refine ⟨hanswers, Row.reread_eq hrow hu, Row.reread_kept hrow hu, ?_⟩
  rw [Row.amounts_kept hu, List.forall₂_map_right_iff, List.forall₂_same]
  exact fun d _ => ⟨d.isNearest_kept, Decimal.sameValue_kept⟩

/-- A debit of one and a half millionths is read back as one of two. -/
theorem insert_kept_twice :
    let j := twice "0.0000015" "0.000003"
    (Row.journal j).InFourDigits ∧
      (empty.afterCalls []).call (.insert (.journal j)) = (.ok (), withJournal j) ∧
      (withJournal j).Answers (.journal j.kept) ∧
      (Row.journal j.kept).reread = .ok (.journal j.kept) ∧
      (Row.journal j.kept).amounts.map Decimal.toText =
        ["0.000002", "0.000000", "0.000002", "0.000000", "0.000000", "0.000003"] := by
  intro j
  have hrow : (Row.journal j).InFourDigits := by
    have hyear : j.bookedAt.InFourDigits := by decide +kernel
    exact hyear
  have hinsert : (empty.afterCalls []).call (.insert (.journal j)) = (.ok (), withJournal j) :=
    call_insert_empty (by decide +kernel) (by decide +kernel)
  obtain ⟨hanswers, -, hagain, -⟩ := insert_kept hrow hinsert
  exact ⟨hrow, hinsert, hanswers, hagain, by decide +kernel⟩

end Tables

end DoubleEntry
