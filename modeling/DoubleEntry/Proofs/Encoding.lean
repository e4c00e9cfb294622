import DoubleEntry.Proofs.Memory
import DoubleEntry.Proofs.StoredViews

/-!
# A store in memory as tables

The values of a store in memory are written to tables row by row (`Memory.tables`).  The tables then
answer what is asked of the store, with amounts at six places: their rows are found by texts and
sorted by texts, which come in the order of the values.

## Main definitions

* `Memory.tables`: the rows of a store in memory.
* `Memory.IsStored`: rows can hold all of its values.

## Main results

* `Tables.call_record`, `Tables.call_payment`, `Tables.stepsOf_tables`, `Tables.activity_tables`:
  what the tables answer.
-/

namespace DoubleEntry

theorem Work.run_call {σ α : Type} [Backend σ] {c : Call} {k : c.Answer → Work α} {s s' : σ}
    {a : c.Answer} (h : Backend.call c s = (.ok a, s')) : (Work.call c k).run s = (k a).run s' := by
  rw [Work.run, h]

/-! ### The order of texts -/

namespace Tables

theorem textLe_microText {a b : Instant} (ha : a.IsWhole) (hb : b.IsWhole) :
    textLe a.microText b.microText = decide (a ≤ b) := by
  rw [textLe, ← decide_not]
  exact decide_eq_decide.2 (not_congr (Instant.microText_lt_iff hb ha))

theorem textLe_toText (u v : Uuid) : textLe u.toText v.toText = decide (u.bits ≤ v.bits) := by
  rw [textLe, ← decide_not, decide_eq_decide, Uuid.toText_lt_iff, not_lt]

end Tables

/-! ### The rows of a store in memory -/

/-- The rows of the lines of a journal, from a number on. -/
def lineRows (journal : JournalId) : (lineNo : Nat) → List EntryLine → List LineRow
  | _, [] => []
  | n, l :: ls => .of journal n l :: lineRows journal (n + 1) ls

/-- The rows of the lines of a journal. -/
def JournalEntry.lineRows (j : JournalEntry) : List LineRow := DoubleEntry.lineRows j.id 0 j.lines

theorem PaymentRow.id_of (p : Payment) : (of p).id = p.id.toText := rfl

theorem JournalRow.id_of (j : JournalEntry) : (of j).id = j.id.toText := rfl

theorem EventRow.id_of (e : OutboxEvent) : (of e).id = e.id.toText := rfl

namespace Memory

/-- The rows of a store in memory. -/
def tables (m : Memory) : Tables where
  payments := m.payments.map .of
  steps := m.steps.map .of
  journals := m.journals.map .of
  lines := m.journals.flatMap JournalEntry.lineRows
  outbox := m.outbox.map .of
  records := m.records.map .of

/-- Rows can hold all values of the store. -/
structure IsStored (m : Memory) : Prop where
  payments : ∀ p ∈ m.payments, p.IsStored
  steps : ∀ s ∈ m.steps, s.IsStored
  journals : ∀ j ∈ m.journals, j.IsStored
  outbox : ∀ e ∈ m.outbox, e.IsStored
  records : ∀ r ∈ m.records, r.IsStored

end Memory

/-! ### Reading -/

namespace Tables

theorem mapM_map {α β γ : Type} {f : β → Except StoreError γ} {row : α → β} {g : α → γ}
    {as : List α} (h : ∀ a ∈ as, f (row a) = .ok (g a)) :
    (as.map row).mapM f = .ok (as.map g) := by
  induction as with
  | nil => rfl
  | cons a as ih =>
    rw [List.map_cons, List.mapM_cons, h a List.mem_cons_self,
      ih fun b hb => h b (List.mem_cons_of_mem a hb)]
    rfl

theorem readFirst_find? {α β γ : Type} {f : β → Except StoreError γ} {row : α → β} {g : α → γ}
    {as : List α} (h : ∀ a ∈ as, f (row a) = .ok (g a)) (p : β → Bool) :
    readFirst f ((as.map row).find? p) = .ok ((as.find? (p ∘ row)).map g) := by
  rw [List.find?_map]
  cases hf : as.find? (p ∘ row) with
  | none => rfl
  | some a =>
    rw [Option.map_some, readFirst, Column.optional, h a (List.mem_of_find?_eq_some hf)]
    rfl

variable {m : Memory}

theorem call_record (h : m.IsStored) (key : String) :
    call (.record key) m.tables = (.ok (m.records.find? fun r => r.key = key), m.tables) := by
  have hread := readFirst_find? (fun r hr => RecordRow.read_of (h.records r hr))
    fun r : RecordRow => r.key = key
  rw [Option.map_id_apply'] at hread
  exact congrArg (·, m.tables) hread

theorem call_payment (h : m.IsStored) (id : PaymentId) :
    call (.payment id) m.tables =
      (.ok ((m.payments.find? fun p => p.id = id).map Payment.atSix), m.tables) := by
  have hread := readFirst_find? (fun p hp => PaymentRow.read_of (h.payments p hp))
    fun p : PaymentRow => p.id = id.toText
  have hid : ((fun p : PaymentRow => decide (p.id = id.toText)) ∘ PaymentRow.of) =
      fun p : Payment => decide (p.id = id) := by
    funext p
    simp [PaymentRow.of]
  rw [hid] at hread
  exact congrArg (·, m.tables) hread

theorem stepsOf_tables (h : m.IsStored) (id : PaymentId) :
    m.tables.stepsOf id = .ok (m.stepsOf id) := by
  have hid : ((fun s : StepRow => decide (s.paymentId = id.toText)) ∘ StepRow.of) =
      fun s : PaymentStep => decide (s.paymentId = id) := by
    funext s
    simp [StepRow.of]
  have hsort : (m.stepsOf id).map StepRow.of =
      ((m.steps.map StepRow.of).filter fun s => s.paymentId = id.toText).mergeSort fun a b =>
        textLe a.attemptedAt b.attemptedAt := by
    rw [Memory.stepsOf, List.filter_map, hid]
    refine List.map_mergeSort fun a ha b hb => ?_
    exact (textLe_microText (h.steps a (List.mem_of_mem_filter ha)).attemptedAt
      (h.steps b (List.mem_of_mem_filter hb)).attemptedAt).symm
  have hmem : ∀ s ∈ m.stepsOf id, s.IsStored := fun s hs =>
    h.steps s (List.mem_of_mem_filter (List.mem_mergeSort.1 hs))
  rw [stepsOf, Memory.tables, ← hsort, mapM_map fun s hs => StepRow.read_of (hmem s hs),
    List.map_id']
  rfl

/-! ### Listings -/

/-- Parts that each carry a key of their own are told apart by it. -/
theorem filter_flatMap_eq {α β κ : Type} [DecidableEq κ] {f : α → List β} (key : α → κ) {q : β → κ}
    {as : List α} (hkey : (as.map key).Nodup) (hq : ∀ a ∈ as, ∀ b ∈ f a, q b = key a) {a : α}
    (ha : a ∈ as) : (as.flatMap f).filter (fun b => q b = key a) = f a := by
  induction as with
  | nil => cases ha
  | cons c as ih =>
    rw [List.map_cons, List.nodup_cons] at hkey
    have hc : ∀ b ∈ f c, q b = key c := hq c List.mem_cons_self
    have hrest := fun d hd => hq d (List.mem_cons_of_mem c hd)
    rw [List.flatMap_cons, List.filter_append]
    obtain rfl | ha := List.mem_cons.1 ha
    · have hall : (f a).filter (fun b => q b = key a) = f a :=
        List.filter_eq_self.2 fun b hb => decide_eq_true (hc b hb)
      have hnone : (as.flatMap f).filter (fun b => q b = key a) = [] := by
        refine List.filter_eq_nil_iff.2 fun b hb hba => hkey.1 ?_
        obtain ⟨d, hd, hbd⟩ := List.mem_flatMap.1 hb
        rw [← of_decide_eq_true hba, hrest d hd b hbd]
        exact List.mem_map_of_mem hd
      rw [hall, hnone, List.append_nil]
    · have hnone : (f c).filter (fun b => q b = key a) = [] := by
        refine List.filter_eq_nil_iff.2 fun b hb hba => hkey.1 ?_
        rw [← hc b hb, of_decide_eq_true hba]
        exact List.mem_map_of_mem ha
      rw [hnone, List.nil_append, ih hkey.2 hrest ha]

theorem journalId_of_mem_lineRows {journal : JournalId} {n : Nat} {ls : List EntryLine}
    {r : LineRow} (h : r ∈ lineRows journal n ls) : r.journalId = journal.toText := by
  induction ls generalizing n with
  | nil => cases h
  | cons l ls ih =>
    obtain rfl | h := List.mem_cons.1 h
    · rfl
    · exact ih h

theorem lineRows_pairwise (journal : JournalId) (n : Nat) (ls : List EntryLine) :
    (lineRows journal n ls).Pairwise (fun a b => a.lineNo ≤ b.lineNo) ∧
      ∀ r ∈ lineRows journal n ls, (n : Int) ≤ r.lineNo := by
  induction ls generalizing n with
  | nil => exact ⟨.nil, List.forall_mem_nil _⟩
  | cons l ls ih =>
    obtain ⟨hsorted, hle⟩ := ih (n + 1)
    have hle' : ∀ r ∈ lineRows journal (n + 1) ls, (n : Int) ≤ r.lineNo := by
      intro r hr
      have := hle r hr
      omega
    exact ⟨List.pairwise_cons.2 ⟨hle', hsorted⟩, List.forall_mem_cons.2 ⟨le_rfl, hle'⟩⟩

theorem mapM_lineRows {journal : JournalId} {n : Nat} {ls : List EntryLine}
    {g : EntryLine → EntryLine} (h : ∀ l ∈ ls, ∀ n, LineRow.read (.of journal n l) = .ok (g l)) :
    (lineRows journal n ls).mapM LineRow.read = .ok (ls.map g) := by
  induction ls generalizing n with
  | nil => rfl
  | cons l ls ih =>
    rw [lineRows, List.mapM_cons, h l List.mem_cons_self,
      ih fun k hk => h k (List.mem_cons_of_mem l hk)]
    rfl

theorem linesOf_eq {t : Tables} {journal : JournalId} {ls : List EntryLine}
    {g : EntryLine → EntryLine}
    (hrows : t.lines.filter (fun l => l.journalId = journal.toText) = lineRows journal 0 ls)
    (h : ∀ l ∈ ls, ∀ n, LineRow.read (.of journal n l) = .ok (g l)) :
    t.linesOf journal.toText = .ok (ls.map g) := by
  have hsorted : (lineRows journal 0 ls).Pairwise fun a b => decide (a.lineNo ≤ b.lineNo) = true :=
    (lineRows_pairwise journal 0 ls).1.imp decide_eq_true
  rw [linesOf, hrows, List.mergeSort_of_pairwise hsorted]
  exact mapM_lineRows h

theorem filter_lines (hids : (m.journals.map (·.id)).Nodup) {j : JournalEntry}
    (hj : j ∈ m.journals) :
    m.tables.lines.filter (fun l => l.journalId = j.id.toText) = j.lineRows := by
  refine filter_flatMap_eq (fun j : JournalEntry => j.id.toText) ?_
    (fun k _ r hr => journalId_of_mem_lineRows hr) hj
  have h := hids.map Uuid.toText_injective
  rwa [List.map_map] at h

theorem readJournal_of (h : m.IsStored) (hids : (m.journals.map (·.id)).Nodup) {j : JournalEntry}
    (hj : j ∈ m.journals) : m.tables.readJournal (.of j) = .ok j.atSix := by
  have hlines : m.tables.linesOf j.id.toText = .ok (j.lines.map EntryLine.atSix) :=
    linesOf_eq (filter_lines hids hj) fun l hl _ => LineRow.read_of ((h.journals j hj).lines l hl)
  simp only [readJournal, JournalRow.id_of, hlines, bind, Except.bind,
    JournalRow.read_of (h.journals j hj)]

theorem exists_mem_lineRows {account : AccountId} (journal : JournalId) (n : Nat)
    {ls : List EntryLine} :
    (∃ r ∈ lineRows journal n ls, r.counterpartyRef = some account.toText) ↔
      ∃ l ∈ ls, l.counterparty = some account := by
  induction ls generalizing n with
  | nil => simp [lineRows]
  | cons l ls ih =>
    have hl : (LineRow.of journal n l).counterpartyRef = some account.toText ↔
        l.counterparty = some account := by
      cases hc : l.counterparty <;> simp [LineRow.of, hc]
    simp only [lineRows, List.exists_mem_cons_iff, hl, ih]

theorem exists_line_iff (hids : (m.journals.map (·.id)).Nodup) {j : JournalEntry}
    (hj : j ∈ m.journals) {account : AccountId} :
    (∃ r ∈ m.tables.lines, r.journalId = j.id.toText ∧ r.counterpartyRef = some account.toText) ↔
      ∃ l ∈ j.lines, l.counterparty = some account := by
  rw [← exists_mem_lineRows j.id 0]
  have hmem : ∀ r, r ∈ lineRows j.id 0 j.lines ↔
      r ∈ m.tables.lines ∧ r.journalId = j.id.toText := by
    intro r
    change r ∈ j.lineRows ↔ _
    rw [← filter_lines hids hj, List.mem_filter, decide_eq_true_eq]
  simp only [hmem, and_assoc]

theorem concerns_of (h : m.IsStored) (hids : (m.journals.map (·.id)).Nodup) {l : Listing}
    (hstart : l.start.IsWhole) (hstop : l.stop.IsWhole) {j : JournalEntry} (hj : j ∈ m.journals) :
    concerns l m.tables (.of j) = Memory.concerns l j := by
  have hbooked := (h.journals j hj).bookedAt
  have hfrom : textLe l.start.microText (JournalRow.of j).bookedAt =
      decide (l.start ≤ j.bookedAt) := textLe_microText hstart hbooked
  have hto : textLe (JournalRow.of j).bookedAt l.stop.microText =
      decide (j.bookedAt ≤ l.stop) := textLe_microText hbooked hstop
  rw [Bool.eq_iff_iff]
  simp only [concerns, Memory.concerns, hfrom, hto, Bool.and_eq_true, List.any_eq_true,
    decide_eq_true_eq]
  rw [JournalRow.id_of, exists_line_iff hids hj]

theorem laterFirst_of {j k : JournalEntry} (hj : j.IsStored) (hk : k.IsStored) :
    laterFirst (.of j) (.of k) = Memory.laterFirst j k := by
  rw [Bool.eq_iff_iff]
  simp only [laterFirst, Memory.laterFirst, JournalRow.of, textLe_toText, Bool.or_eq_true,
    Bool.and_eq_true, decide_eq_true_eq, beq_iff_eq, Instant.microText_inj hj.bookedAt hk.bookedAt,
    Instant.microText_lt_iff hk.bookedAt hj.bookedAt]

/-- **A page of the journals of an account** is read with amounts at six places. -/
theorem activity_tables (h : m.IsStored) (hids : (m.journals.map (·.id)).Nodup) {l : Listing}
    (hstart : l.start.IsWhole) (hstop : l.stop.IsWhole) :
    m.tables.activity l = .ok ((m.activity l).map JournalEntry.atSix) := by
  have hfilter : m.tables.journals.filter (concerns l m.tables) =
      (m.journals.filter (Memory.concerns l)).map JournalRow.of := by
    have hconcerns : ∀ j ∈ m.journals, (concerns l m.tables ∘ JournalRow.of) j =
        Memory.concerns l j := fun j hj => by
      rw [Function.comp_apply, concerns_of h hids hstart hstop hj]
    rw [Memory.tables, List.filter_map]
    exact congrArg (List.map JournalRow.of) (List.filter_congr hconcerns)
  have hstored : ∀ j ∈ m.journals.filter (Memory.concerns l), j.IsStored :=
    fun j hj => h.journals j (List.mem_of_mem_filter hj)
  have hsort : (m.tables.journals.filter (concerns l m.tables)).mergeSort laterFirst =
      ((m.journals.filter (Memory.concerns l)).mergeSort Memory.laterFirst).map JournalRow.of := by
    rw [hfilter]
    refine (List.map_mergeSort fun j hj k hk => ?_).symm
    rw [laterFirst_of (hstored j hj) (hstored k hk)]
  have hread : ∀ j ∈ m.activity l, m.tables.readJournal (.of j) = .ok j.atSix := by
    intro j hj
    have hj' := List.mem_mergeSort.1 (List.mem_of_mem_drop (List.mem_of_mem_take hj))
    exact readJournal_of h hids (List.mem_of_mem_filter hj')
  rw [activity, hsort, ← List.map_drop, ← List.map_take]
  exact congrArg Halt.refusing (mapM_map hread)

end Tables

end DoubleEntry
