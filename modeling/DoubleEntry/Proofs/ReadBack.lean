import DoubleEntry.Proofs.EncodedInserts
import DoubleEntry.Proofs.Units

/-!
# Journals are read back balanced

A journal is checked before it is inserted, and its amounts are written to its rows at six places.
If each of them is a whole number of millionths, however many places it has, then the journal that
is read back is balanced too, whatever was done to the tables before and after
(`Tables.read_back_balanced`).  Amounts of more places are rounded one by one, and then it need not
be (`Tables.not_read_back_balanced`).

## Main definitions

* `EntryLine.SameAmounts`: the amounts of two lines denote the same numbers.
* `Tables.afterCalls`: the tables after some calls.
* `Tables.Adds`: what a call adds to journals and lines.
* `Tables.Holds`: the rows of a journal are in the tables.

## Main results

* `ensureBalanced_congr`: the rule of double entry looks at the numbers only.
* `Tables.adds_call`: a call adds nothing, or a new journal.
* `Tables.read_back`: a journal that was inserted is read back.
-/

namespace DoubleEntry

/-! ### The rule of double entry -/

namespace EntryLine

/-- The amounts of the lines denote the same numbers, and have the same signs. -/
structure SameAmounts (l l' : EntryLine) : Prop where
  debit_negative : l.debit.negative = l'.debit.negative
  credit_negative : l.credit.negative = l'.credit.negative
  debit : l.debit.units = l'.debit.units
  credit : l.credit.units = l'.credit.units

/-- Both amounts are whole numbers of millionths. -/
def InMillionths (l : EntryLine) : Prop := l.debit.InMillionths ∧ l.credit.InMillionths

instance : DecidablePred InMillionths := fun _ => inferInstanceAs (Decidable (_ ∧ _))

variable {l l' : EntryLine}

theorem SameAmounts.isZero (h : SameAmounts l l') :
    l.debit.isZero = l'.debit.isZero ∧ l.credit.isZero = l'.credit.isZero := by
  refine ⟨Bool.eq_iff_iff.2 ?_, Bool.eq_iff_iff.2 ?_⟩
  · rw [Decimal.isZero_iff_units, Decimal.isZero_iff_units, h.debit]
  · rw [Decimal.isZero_iff_units, Decimal.isZero_iff_units, h.credit]

theorem sameAmounts_kept (journal : JournalId) (h : l.IsUnsigned) (hm : l.InMillionths) :
    SameAmounts l (l.kept journal) where
  debit_negative := h.debit.trans (Decimal.unsigned_toAmount h.debit).symm
  credit_negative := h.credit.trans (Decimal.unsigned_toAmount h.credit).symm
  debit := (Decimal.units_toAmount hm.1).symm
  credit := (Decimal.units_toAmount hm.2).symm

end EntryLine

variable {ls ls' : List EntryLine} {a b a' b' : Decimal}

/-- Lines of the same amounts are refused alike, or their totals are the same. -/
theorem checkLines_congr (h : List.Forall₂ EntryLine.SameAmounts ls ls') (ha : a.units = a'.units)
    (hb : b.units = b'.units) (index : Nat) :
    (∃ e, checkLines index a b ls = .error e ∧ checkLines index a' b' ls' = .error e) ∨
      ∃ c d c' d', checkLines index a b ls = .ok (c, d) ∧
        checkLines index a' b' ls' = .ok (c', d') ∧ c.units = c'.units ∧ d.units = d'.units := by
  induction h generalizing a b a' b' index with
  | nil => exact .inr ⟨a, b, a', b', rfl, rfl, ha, hb⟩
  | @cons l l' ls ls' hl _ ih =>
    obtain ⟨hdebit, hcredit⟩ := hl.isZero
    have ha' := Decimal.add_congr ha hl.debit
    have hb' := Decimal.add_congr hb hl.credit
    rw [checkLines, checkLines, ← hl.debit_negative, ← hl.credit_negative, ← hdebit, ← hcredit]
    generalize a.add l.debit = x at ha'
    generalize a'.add l'.debit = x' at ha'
    generalize b.add l.credit = y at hb'
    generalize b'.add l'.credit = y' at hb'
    split_ifs
    · exact .inl ⟨_, rfl, rfl⟩
    · exact .inl ⟨_, rfl, rfl⟩
    · cases ha' with
      | none => exact .inl ⟨_, rfl, rfl⟩
      | some hc =>
        cases hb' with
        | none => exact .inl ⟨_, rfl, rfl⟩
        | some hd => exact ih hc hd (index + 1)

/-- **The rule of double entry** looks at the numbers that the amounts denote. -/
theorem ensureBalanced_congr (h : List.Forall₂ EntryLine.SameAmounts ls ls') :
    ensureBalanced ls = .ok () ↔ ensureBalanced ls' = .ok () := by
  rw [ensureBalanced, ensureBalanced, ← h.length_eq]
  split_ifs
  · exact Iff.rfl
  obtain ⟨e, he, he'⟩ | ⟨c, d, c', d', hcd, hcd', hc, hd⟩ := checkLines_congr h rfl rfl 0
  · rw [he, he']
  · have hsame : c.sameValue d = c'.sameValue d' := by
      rw [Bool.eq_iff_iff, Decimal.sameValue_iff_units, Decimal.sameValue_iff_units, hc, hd]
    simp only [hcd, hcd', bind, Except.bind, hsame]
    split_ifs
    · rfl
    · exact iff_of_false nofun nofun

theorem isUnsigned_of_checkLines {p : Decimal × Decimal} {index : Nat}
    (h : checkLines index a b ls = .ok p) : ∀ l ∈ ls, l.IsUnsigned := by
  induction ls generalizing a b index with
  | nil => exact List.forall_mem_nil _
  | cons l ls ih =>
    rw [checkLines] at h
    split_ifs at h with hsign
    · cases h
    · cases h
    · obtain ⟨debit, -, h⟩ := exists_of_bind_eq_ok h
      obtain ⟨credit, -, h⟩ := exists_of_bind_eq_ok h
      rw [Bool.or_eq_true, not_or, Bool.not_eq_true, Bool.not_eq_true] at hsign
      exact List.forall_mem_cons.2 ⟨⟨hsign.1, hsign.2⟩, ih h⟩

theorem isUnsigned_of_balanced (h : ensureBalanced ls = .ok ()) : ∀ l ∈ ls, l.IsUnsigned := by
  rw [ensureBalanced] at h
  split_ifs at h
  · cases h
  · obtain ⟨p, hp, -⟩ := exists_of_bind_eq_ok h
    exact isUnsigned_of_checkLines hp

/-- **What tables keep of a journal in millionths** is balanced. -/
theorem JournalEntry.ensureBalanced_kept {j : JournalEntry} (h : ensureBalanced j.lines = .ok ())
    (hm : ∀ l ∈ j.lines, l.InMillionths) : ensureBalanced j.kept.lines = .ok () := by
  refine (ensureBalanced_congr ?_).1 h
  rw [JournalEntry.kept, List.forall₂_map_right_iff, List.forall₂_same]
  exact fun l hl => EntryLine.sameAmounts_kept j.id (isUnsigned_of_balanced h l hl) (hm l hl)

namespace Tables

variable {t t' : Tables} {j : JournalEntry}

/-! ### Calls -/

/-- The tables after some calls, whether these succeeded or not. -/
def afterCalls (t : Tables) (cs : List Call) : Tables := cs.foldl (fun t c => (t.call c).2) t

/-- What a call adds to journals and lines: nothing, or a new journal with some of its lines. -/
inductive Adds (t t' : Tables) : Prop where
  | nothing (journals : t'.journals = t.journals) (lines : t'.lines = t.lines)
  | journal (j : JournalEntry) (rows : List LineRow)
    (fresh : ∀ r ∈ t.journals, r.id ≠ j.id.toText)
    (journals : t'.journals = t.journals ++ [.of j]) (lines : t'.lines = t.lines ++ rows)
    (owned : ∀ r ∈ rows, r.journalId = j.id.toText)

theorem insertLine_cases (r : LineRow) (t : Tables) :
    (∃ e, t.insertLine r = .error e) ∨ t.insertLine r = .ok { t with lines := t.lines ++ [r] } := by
  unfold insertLine
  split_ifs
  · exact .inl ⟨_, rfl⟩
  · exact .inr rfl

theorem insertLines_cases (journal : JournalId) (n : Nat) (ls : List EntryLine) (t : Tables) :
    ∃ rows, (insertLines journal n ls t).2 = { t with lines := t.lines ++ rows } ∧
      (∀ r ∈ rows, r.journalId = journal.toText) ∧
      ((insertLines journal n ls t).1 = .ok () → rows = lineRows journal n ls) := by
  induction ls generalizing n t with
  | nil => exact ⟨[], by simp [insertLines], List.forall_mem_nil _, fun _ => rfl⟩
  | cons l ls ih =>
    rw [insertLines]
    obtain ⟨e, he⟩ | hok := t.insertLine_cases (.of journal n l)
    · rw [he]
      exact ⟨[], by simp, List.forall_mem_nil _, by rintro ⟨⟩⟩
    · rw [hok]
      obtain ⟨rows, hrows, howned, hall⟩ :=
        ih (n + 1) { t with lines := t.lines ++ [.of journal n l] }
      refine ⟨.of journal n l :: rows, by simp [hrows], List.forall_mem_cons.2 ⟨rfl, howned⟩, ?_⟩
      exact fun h => congrArg (LineRow.of journal n l :: ·) (hall h)

/-- **A journal is refused, or it is balanced and new**, and is added with lines of its own: all of
them, if it is accepted. -/
theorem insertJournal_cases (j : JournalEntry) (t : Tables) :
    (∃ e, t.insertJournal j = (.error e, t)) ∨
      ensureBalanced j.lines = .ok () ∧ (∀ r ∈ t.journals, r.id ≠ j.id.toText) ∧
      ∃ rows, (t.insertJournal j).2 =
          { t with journals := t.journals ++ [.of j], lines := t.lines ++ rows } ∧
        (∀ r ∈ rows, r.journalId = j.id.toText) ∧
        ((t.insertJournal j).1 = .ok () → rows = j.lineRows) := by
  unfold insertJournal
  cases hbalanced : ensureBalanced j.lines with
  | error e => exact .inl ⟨_, rfl⟩
  | ok u =>
    cases hany : t.journals.any fun q => q.id = (JournalRow.of j).id with
    | true =>
      rw [insertHead, hany]
      exact .inl ⟨_, rfl⟩
    | false =>
      have hfresh : ∀ r ∈ t.journals, r.id ≠ j.id.toText := fun r hr hid =>
        List.any_eq_false.1 hany r hr (decide_eq_true hid)
      rw [insertHead, hany]
      exact .inr ⟨rfl, hfresh, insertLines_cases j.id 0 j.lines _⟩

theorem frame_updateEach (p : EventRow → Bool) (f : EventRow → EventRow) (ids : List EventId)
    (t : Tables) : (updateEach p f ids t).2.journals = t.journals ∧
      (updateEach p f ids t).2.lines = t.lines := by
  induction ids generalizing t with
  | nil => exact ⟨rfl, rfl⟩
  | cons id ids ih => exact ih _

theorem frame_call {c : Call} (hc : ∀ j, c ≠ .insert (.journal j)) (t : Tables) :
    (t.call c).2.journals = t.journals ∧ (t.call c).2.lines = t.lines := by
  cases c with
  | insert row =>
    cases row with
    | journal j => exact absurd rfl (hc j)
    | _ =>
      simp only [call, insert, insertPayment, insertStep, insertEvent, insertRecord]
      split_ifs <;> exact ⟨rfl, rfl⟩
  | claim limit owner now ttl =>
    rw [call, claim]
    split
    · exact ⟨rfl, rfl⟩
    · dsimp only
      split <;> exact ⟨rfl, rfl⟩
  | markPublished ids now => exact frame_updateEach (fun _ => true) (publishedAt now) ids t
  | releaseClaims ids owner => exact frame_updateEach (isHeldBy owner) unclaimed ids t
  | _ => exact ⟨rfl, rfl⟩

/-- **What a call adds**: nothing, or a new journal. -/
theorem adds_call (c : Call) (t : Tables) : Adds t (t.call c).2 := by
  by_cases hc : ∃ j, c = .insert (.journal j)
  · obtain ⟨j, rfl⟩ := hc
    obtain ⟨e, he⟩ | ⟨-, hfresh, rows, hrows, howned, -⟩ := t.insertJournal_cases j
    · exact .nothing (by rw [call, insert, he]) (by rw [call, insert, he])
    · exact .journal j rows hfresh (by rw [call, insert, hrows]) (by rw [call, insert, hrows])
        howned
  · obtain ⟨hjournals, hlines⟩ := frame_call (fun j hj => hc ⟨j, hj⟩) t
    exact .nothing hjournals hlines

/-! ### Rows of journals -/

/-- Every line belongs to a journal that is there. -/
def Parented (t : Tables) : Prop := ∀ l ∈ t.lines, ∃ r ∈ t.journals, r.id = l.journalId

/-- The rows of a journal are found. -/
structure Holds (j : JournalEntry) (t : Tables) : Prop where
  head : t.journals.find? (fun r => r.id = j.id.toText) = some (.of j)
  lines : t.lines.filter (fun l => l.journalId = j.id.toText) = j.lineRows

theorem Parented.adds (h : t.Parented) (hadds : Adds t t') : t'.Parented := by
  cases hadds with
  | nothing journals lines =>
    rw [Parented, journals, lines]
    exact h
  | journal j rows fresh journals lines owned =>
    rw [Parented, journals, lines]
    intro l hl
    obtain hl | hl := List.mem_append.1 hl
    · obtain ⟨r, hr, hid⟩ := h l hl
      exact ⟨r, List.mem_append_left _ hr, hid⟩
    · exact ⟨.of j, List.mem_append_right _ (List.mem_singleton_self _), (owned l hl).symm⟩

theorem Holds.adds (h : Holds j t) (hadds : Adds t t') : Holds j t' := by
  cases hadds with
  | nothing journals lines => exact ⟨journals ▸ h.head, lines ▸ h.lines⟩
  | journal k rows fresh journals lines owned =>
    have hne : j.id.toText ≠ k.id.toText := fresh (.of j) (List.mem_of_find?_eq_some h.head)
    have hnone : rows.filter (fun l => l.journalId = j.id.toText) = [] := by
      refine List.filter_eq_nil_iff.2 fun r hr hid => hne ?_
      rw [← of_decide_eq_true hid, owned r hr]
    refine ⟨?_, ?_⟩
    · rw [journals, List.find?_append, h.head]
      rfl
    · rw [lines, List.filter_append, hnone, h.lines, List.append_nil]

/-- **Every line belongs to a journal**, whatever was done to tables that were empty at first. -/
theorem parented_afterCalls (cs : List Call) : (empty.afterCalls cs).Parented := by
  have run (t : Tables) (h : t.Parented) : (t.afterCalls cs).Parented := by
    induction cs generalizing t with
    | nil => exact h
    | cons c cs ih => exact ih _ (h.adds (adds_call c t))
  exact run empty (List.forall_mem_nil _)

/-- **The rows of a journal stay**, whatever is done to the tables. -/
theorem Holds.afterCalls (h : Holds j t) (cs : List Call) : Holds j (t.afterCalls cs) := by
  induction cs generalizing t with
  | nil => exact h
  | cons c cs ih => exact ih (h.adds (adds_call c t))

theorem holds_of_insert (ht : t.Parented) (h : t.insertJournal j = (.ok (), t')) :
    ensureBalanced j.lines = .ok () ∧ Holds j t' := by
  obtain ⟨e, he⟩ | ⟨hbalanced, hfresh, rows, hrows, howned, hall⟩ := t.insertJournal_cases j
  · cases he.symm.trans h
  rw [h] at hrows hall
  obtain rfl := hall rfl
  refine ⟨hbalanced, ?_⟩
  have hhead : t.journals.find? (fun r => r.id = j.id.toText) = none :=
    List.find?_eq_none.2 fun r hr => by simpa using hfresh r hr
  have hnone : t.lines.filter (fun l => l.journalId = j.id.toText) = [] := by
    refine List.filter_eq_nil_iff.2 fun l hl hid => ?_
    obtain ⟨r, hr, hid'⟩ := ht l hl
    exact hfresh r hr (hid'.trans (of_decide_eq_true hid))
  have hlines : j.lineRows.filter (fun l => l.journalId = j.id.toText) = j.lineRows :=
    List.filter_eq_self.2 fun r hr => decide_eq_true (howned r hr)
  have ht' : t' = { t with journals := t.journals ++ [.of j], lines := t.lines ++ j.lineRows } :=
    hrows
  subst ht'
  refine ⟨?_, ?_⟩
  · rw [List.find?_append, hhead, Option.none_or, List.find?_singleton]
    simp [JournalRow.id_of]
  · rw [List.filter_append, hnone, hlines, List.nil_append]

theorem Holds.call_journal (h : Holds j t) (hyear : j.bookedAt.InFourDigits)
    (hu : ∀ l ∈ j.lines, l.IsUnsigned) :
    t.call (.journal j.id) = (.ok (some j.kept), t) := by
  have hlines : t.linesOf j.id.toText = .ok (j.lines.map (.kept j.id)) :=
    linesOf_eq h.lines fun l hl _ => LineRow.read_kept (hu l hl)
  have hread : t.readJournal (.of j) = .ok j.kept := by
    simp only [readJournal, JournalRow.id_of, hlines, bind, Except.bind, JournalRow.read_kept hyear]
  simp only [call, h.head, readFirst, Column.optional, hread]
  rfl

/-! ### Reading back -/

section

variable {cs : List Call} (ds : List Call)

/-- **A journal that was accepted is read back**, whatever was done to the tables before and after,
with its amounts at six places. -/
theorem read_back (hyear : 0 ≤ j.bookedAt.year ∧ j.bookedAt.year ≤ 9999)
    (h : (empty.afterCalls cs).call (.insert (.journal j)) = (.ok (), t)) :
    ensureBalanced j.lines = .ok () ∧
      (t.afterCalls ds).call (.journal j.id) = (.ok (some j.kept), t.afterCalls ds) := by
  obtain ⟨hbalanced, hholds⟩ := holds_of_insert (parented_afterCalls cs) h
  exact ⟨hbalanced, (hholds.afterCalls ds).call_journal hyear (isUnsigned_of_balanced hbalanced)⟩

/-- **A journal in millionths is read back balanced**, whatever was done to the tables before and
after it was accepted. -/
theorem read_back_balanced (hyear : 0 ≤ j.bookedAt.year ∧ j.bookedAt.year ≤ 9999)
    (hm : ∀ l ∈ j.lines, l.InMillionths)
    (h : (empty.afterCalls cs).call (.insert (.journal j)) = (.ok (), t)) :
    (t.afterCalls ds).call (.journal j.id) = (.ok (some j.kept), t.afterCalls ds) ∧
      ensureBalanced j.kept.lines = .ok () := by
  obtain ⟨hbalanced, hread⟩ := read_back ds hyear h
  exact ⟨hread, JournalEntry.ensureBalanced_kept hbalanced hm⟩

end

/-- A journal of two debits of one amount, and of one credit. -/
def twice (debit credit : String) : JournalEntry where
  id := .ofNat 1
  externalRef := "twice"
  bookedAt := .epoch
  createdBy := "ops"
  status := .posted
  currency := (Currency.ofCode? "USD").get (by decide)
  lines := [.ofDebit (.ofNat 2) (.ofNat 1) .outgoing none ((Decimal.ofText? debit).getD .zero),
    .ofDebit (.ofNat 3) (.ofNat 1) .outgoing none ((Decimal.ofText? debit).getD .zero),
    .ofCredit (.ofNat 4) (.ofNat 1) .incoming none ((Decimal.ofText? credit).getD .zero)]

/-- Tables with a journal. -/
def withJournal (j : JournalEntry) : Tables := (Memory.empty.add (.journal j)).tables

theorem call_insert_empty (hids : j.ids.Nodup) (h : ensureBalanced j.lines = .ok ()) :
    (empty.afterCalls []).call (.insert (.journal j)) = (.ok (), withJournal j) :=
  insert_journal (m := .empty) (by simpa [Memory.ids, Memory.empty] using hids) h

/-- Two halves of eight places are read back as two of six, also if they are inserted again. -/
theorem read_back_halves :
    let j := twice "0.50000000" "1"
    let t := (withJournal j).afterCalls [.insert (.journal j)]
    (0 ≤ j.bookedAt.year ∧ j.bookedAt.year ≤ 9999) ∧ (∀ l ∈ j.lines, l.InMillionths) ∧
      (empty.afterCalls []).call (.insert (.journal j)) = (.ok (), withJournal j) ∧
      t.call (.journal j.id) = (.ok (some j.kept), t) ∧ ensureBalanced j.kept.lines = .ok () := by
  intro j t
  have hyear : 0 ≤ j.bookedAt.year ∧ j.bookedAt.year ≤ 9999 := by decide +kernel
  have hm : ∀ l ∈ j.lines, l.InMillionths := by decide +kernel
  have hinsert : (empty.afterCalls []).call (.insert (.journal j)) = (.ok (), withJournal j) :=
    call_insert_empty (by decide +kernel) (by decide +kernel)
  exact ⟨hyear, hm, hinsert, read_back_balanced _ hyear hm hinsert⟩

/-- **Amounts of seven places are rounded one by one**: each debit becomes two millionths, and the
credit stays at three. -/
theorem not_read_back_balanced : ¬ ∀ (cs ds : List Call) (j : JournalEntry) (t : Tables),
    0 ≤ j.bookedAt.year ∧ j.bookedAt.year ≤ 9999 →
    (empty.afterCalls cs).call (.insert (.journal j)) = (.ok (), t) →
    ∃ j', (t.afterCalls ds).call (.journal j.id) = (.ok (some j'), t.afterCalls ds) ∧
      ensureBalanced j'.lines = .ok () := by
  intro h
  obtain ⟨j, hj⟩ : ∃ j, j = twice "0.0000015" "0.000003" := ⟨_, rfl⟩
  have hyear : 0 ≤ j.bookedAt.year ∧ j.bookedAt.year ≤ 9999 := by
    rw [hj]
    decide +kernel
  have hinsert : (empty.afterCalls []).call (.insert (.journal j)) = (.ok (), withJournal j) := by
    rw [hj]
    exact call_insert_empty (by decide +kernel) (by decide +kernel)
  obtain ⟨j', hread, hbalanced⟩ := h [] [] j _ hyear hinsert
  obtain ⟨-, hkept⟩ := read_back [] hyear hinsert
  obtain rfl : j' = j.kept :=
    Option.some.inj (Except.ok.inj (congrArg Prod.fst (hread.symm.trans hkept)))
  have hunbalanced : ensureBalanced j.kept.lines ≠ .ok () := by
    rw [hj]
    decide +kernel
  exact hunbalanced hbalanced

end Tables

end DoubleEntry
