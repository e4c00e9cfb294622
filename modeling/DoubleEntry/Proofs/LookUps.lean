import DoubleEntry.Proofs.FaultyRuns
import DoubleEntry.Proofs.Books
import DoubleEntry.Proofs.StoredPostings
import Mathlib.Data.List.Sort
import Mathlib.Data.Prod.Lex
import Mathlib.Data.String.Basic

/-!
# What is looked up

What a store of either layout answers about a payment depends on its row and the rows of its steps
only (`Layout.run_payment`).  What it answers about the journals of an account is a page of one
sorted list, each journal being read from its own rows only (`Layout.run_activity`); where journals
are added to the store, the list that was there before is a part of the new one
(`Layout.found_sublist`).

## Main definitions

* `Layout.shown`: a payment with its steps, as it is read.
* `Layout.entry`, `Layout.view`: a journal, as it is read, and what is shown of it.
* `Layout.found`: the journals of a listing, the latest first.
-/

namespace DoubleEntry

/-! ### Payments -/

section

variable {m : Memory} {p : Payment} {steps : List PaymentStep}

theorem Memory.find?_tables (hp : m.payments.find? (fun q => q.id = p.id) = some p) :
    m.tables.payments.find? (fun r => r.id = p.id.toText) = some (.of p) := by
  have hid : ((fun r : PaymentRow => decide (r.id = p.id.toText)) ∘ PaymentRow.of) =
      fun q : Payment => decide (q.id = p.id) := by
    funext q
    simp [PaymentRow.of]
  rw [Memory.tables, List.find?_map, hid, hp]
  rfl

/-- Steps that were taken at one time are in the order that they were inserted in. -/
theorem Memory.stepsOf_eq {id : PaymentId} (hs : m.steps.filter (fun s => s.paymentId = id) = steps)
    (hsame : ∀ a ∈ steps, ∀ b ∈ steps, a.attemptedAt = b.attemptedAt) : m.stepsOf id = steps := by
  rw [Memory.stepsOf, hs]
  exact List.mergeSort_of_pairwise
    (List.pairwise_of_forall_mem_list fun a ha b hb => by simp [hsame a ha b hb])

/-- So are their rows. -/
theorem Tables.stepsOf_eq {id : PaymentId} (hs : m.steps.filter (fun s => s.paymentId = id) = steps)
    (hsame : ∀ a ∈ steps, ∀ b ∈ steps, a.attemptedAt = b.attemptedAt) :
    m.tables.stepsOf id = Halt.refusing ((steps.map StepRow.of).mapM StepRow.read) := by
  have hid : ((fun s : StepRow => decide (s.paymentId = id.toText)) ∘ StepRow.of) =
      fun s : PaymentStep => decide (s.paymentId = id) := by
    funext s
    simp [StepRow.of]
  have hsorted : (steps.map StepRow.of).Pairwise fun a b =>
      Tables.textLe a.attemptedAt b.attemptedAt = true := by
    refine List.pairwise_map.2 (List.pairwise_of_forall_mem_list fun a ha b hb => ?_)
    simp [StepRow.of, hsame a ha b hb, Tables.textLe]
  rw [Tables.stepsOf, Memory.tables, List.filter_map, hid, hs, List.mergeSort_of_pairwise hsorted]

end

namespace Layout

/-- A payment with its steps, as it is read. -/
def shown (p : Payment) (steps : List PaymentStep) :
    Layout → Except StoreError (Payment × List PaymentStep)
  | values => .ok (p, steps)
  | rows => do
    let p ← PaymentRow.read (.of p)
    let steps ← (steps.map StepRow.of).mapM StepRow.read
    return (p, steps)

/-- **A payment is looked up** with its steps, if these were taken at one time. -/
theorem run_payment (k : Layout) {m : Memory} {p : Payment} {steps : List PaymentStep}
    (hp : m.payments.filter (fun q => q.id = p.id) = [p])
    (hs : m.steps.filter (fun s => s.paymentId = p.id) = steps)
    (hsame : ∀ a ∈ steps, ∀ b ∈ steps, a.attemptedAt = b.attemptedAt) :
    ((StoreRequest.payment p.id).work.run (k.database m)).1 =
      Halt.refusing (some <$> k.shown p steps) := by
  have hfind : m.payments.find? (fun q => q.id = p.id) = some p := by
    rw [← List.head?_filter, hp]
    rfl
  cases k with
  | values =>
    have hcall : Backend.call (Call.payment p.id) m = (.ok (some p), m) :=
      congrArg (fun o => (Except.ok o, m)) hfind
    rw [database, Store.run_memory, StoreRequest.work, Work.run_call hcall,
      ← Memory.stepsOf_eq hs hsame]
    rfl
  | rows =>
    have hcall : Backend.call (Call.payment p.id) m.tables =
        (Tables.readFirst PaymentRow.read (some (.of p)), m.tables) :=
      congrArg (fun o => (Tables.readFirst PaymentRow.read o, m.tables)) (Memory.find?_tables hfind)
    have hcall' : Backend.call (Call.steps p.id) m.tables =
        (Halt.refusing ((steps.map StepRow.of).mapM StepRow.read), m.tables) :=
      congrArg (·, m.tables) (Tables.stepsOf_eq hs hsame)
    rw [database, Store.run_tables, shown, StoreRequest.work, Work.run, hcall, Tables.readFirst,
      Column.optional]
    cases PaymentRow.read (.of p) with
    | error e => rfl
    | ok p' =>
      have hrest : ((Work.call (.steps p.id) fun steps => .done (some (p', steps))).run
          m.tables).1 = Halt.refusing (some <$> do
            let steps ← (steps.map StepRow.of).mapM StepRow.read
            return (p', steps)) := by
        rw [Work.run, hcall']
        cases (steps.map StepRow.of).mapM StepRow.read <;> rfl
      exact hrest

/-! ### Journals -/

/-- The journal names the account and was booked within the span of time, by the order of instants
or of their texts. -/
def concerns (l : Listing) : Layout → JournalEntry → Bool
  | values, j => Memory.concerns l j
  | rows, j => Tables.textLe l.start.microText j.bookedAt.microText &&
      Tables.textLe j.bookedAt.microText l.stop.microText &&
      j.lines.any fun line => line.counterparty = some l.account

/-- The later journal goes first, by the order of instants or of their texts. -/
def laterFirst : Layout → JournalEntry → JournalEntry → Bool
  | values, a, b => Memory.laterFirst a b
  | rows, a, b => Tables.laterFirst (.of a) (.of b)

/-- A journal, as it is read. -/
def entry : Layout → JournalEntry → Except StoreError JournalEntry
  | values, j => .ok j
  | rows, j => do JournalRow.read (.of j) (← j.lineRows.mapM LineRow.read)

/-- What is shown of a journal, as it is read. -/
def view (k : Layout) (j : JournalEntry) : Except StoreError JournalView :=
  JournalView.ofEntry <$> k.entry j

/-- The journals of a listing, the latest first. -/
def found (k : Layout) (l : Listing) (m : Memory) : List JournalEntry :=
  (m.journals.filter (k.concerns l)).mergeSort k.laterFirst

/-- The journals of a page. -/
def page (k : Layout) (l : Listing) (m : Memory) : List JournalEntry :=
  ((k.found l m).drop (Memory.pageStart l.page l.size)).take l.size

variable {k : Layout} {l : Listing} {m m' : Memory}

theorem mem_found {j : JournalEntry} :
    j ∈ k.found l m ↔ j ∈ m.journals ∧ k.concerns l j = true := by
  rw [found, List.mem_mergeSort, List.mem_filter]

theorem mem_found_of_mem_page {j : JournalEntry} (h : j ∈ k.page l m) : j ∈ k.found l m :=
  List.mem_of_mem_drop (List.mem_of_mem_take h)

theorem mapM_congr {α β ε : Type} {f g : α → Except ε β} {as : List α} (h : ∀ a ∈ as, f a = g a) :
    as.mapM f = as.mapM g := by
  induction as with
  | nil => rfl
  | cons a as ih =>
    rw [List.mapM_cons, List.mapM_cons, h a List.mem_cons_self,
      ih fun b hb => h b (List.mem_cons_of_mem a hb)]

theorem page_succ (k : Layout) (l : Listing) (n : Nat) (m : Memory) :
    k.page { l with page := n + 1 } m = ((k.found l m).drop (n * l.size)).take l.size := by
  rw [page, Memory.pageStart, Nat.max_eq_left (Nat.le_add_left 1 n), Nat.add_sub_cancel]
  rfl

theorem mem_of_mapM {α β ε : Type} {f : α → Except ε β} {as : List α} {bs : List β}
    (h : as.mapM f = .ok bs) :
    bs.length = as.length ∧ ∀ b, b ∈ bs ↔ ∃ a ∈ as, f a = .ok b := by
  induction as generalizing bs with
  | nil => cases h; exact ⟨rfl, by simp⟩
  | cons a as ih =>
    rw [List.mapM_cons] at h
    cases ha : f a with
    | error e => rw [ha] at h; cases h
    | ok b =>
      cases has : as.mapM f with
      | error e => rw [ha, has] at h; cases h
      | ok bs' =>
        rw [ha, has] at h
        cases h
        obtain ⟨hlength, hmem⟩ := ih has
        refine ⟨congrArg (· + 1) hlength, fun c => ?_⟩
        rw [List.mem_cons, hmem, List.exists_mem_cons_iff, ha, Except.ok.injEq, eq_comm]

theorem readJournal_eq (hids : (m.journals.map (·.id)).Nodup) {j : JournalEntry}
    (hj : j ∈ m.journals) : m.tables.readJournal (.of j) = rows.entry j := by
  have hsorted : (lineRows j.id 0 j.lines).Pairwise fun a b =>
      decide (a.lineNo ≤ b.lineNo) = true :=
    (Tables.lineRows_pairwise j.id 0 j.lines).1.imp decide_eq_true
  have hlines : m.tables.linesOf j.id.toText = j.lineRows.mapM LineRow.read := by
    rw [Tables.linesOf, Tables.filter_lines hids hj, JournalEntry.lineRows,
      List.mergeSort_of_pairwise hsorted]
  rw [Tables.readJournal, JournalRow.id_of, hlines]
  rfl

theorem concerns_eq (hids : (m.journals.map (·.id)).Nodup) {j : JournalEntry}
    (hj : j ∈ m.journals) : Tables.concerns l m.tables (.of j) = rows.concerns l j := by
  rw [Bool.eq_iff_iff]
  simp only [Tables.concerns, concerns, Bool.and_eq_true, List.any_eq_true, decide_eq_true_eq]
  rw [JournalRow.id_of, Tables.exists_line_iff hids hj]
  rfl

theorem found_rows (l : Listing) (hids : (m.journals.map (·.id)).Nodup) :
    (m.tables.journals.filter (Tables.concerns l m.tables)).mergeSort Tables.laterFirst =
      (found rows l m).map JournalRow.of := by
  have hfilter : m.tables.journals.filter (Tables.concerns l m.tables) =
      (m.journals.filter (concerns l rows)).map JournalRow.of := by
    have hconcerns : ∀ j ∈ m.journals, (Tables.concerns l m.tables ∘ JournalRow.of) j =
        concerns l rows j := fun j hj => by rw [Function.comp_apply, concerns_eq hids hj]
    rw [Memory.tables, List.filter_map]
    exact congrArg (List.map JournalRow.of) (List.filter_congr hconcerns)
  rw [hfilter]
  exact (List.map_mergeSort (r := laterFirst rows) (s := Tables.laterFirst) fun _ _ _ _ => rfl).symm

theorem activity_rows (l : Listing) (hids : (m.journals.map (·.id)).Nodup) :
    m.tables.activity l = Halt.refusing ((page rows l m).mapM (entry rows)) := by
  have hentry : ∀ j ∈ page rows l m, m.tables.readJournal (.of j) = entry rows j :=
    fun j hj => readJournal_eq hids (mem_found.1 (mem_found_of_mem_page hj)).1
  have hpage : ((page rows l m).map JournalRow.of).mapM m.tables.readJournal =
      (page rows l m).mapM (entry rows) := by
    rw [List.mapM_map]
    exact mapM_congr hentry
  rw [Tables.activity, found_rows l hids, ← List.map_drop, ← List.map_take]
  exact congrArg Halt.refusing hpage

/-- **The journals of an account are looked up** page by page. -/
theorem run_activity (k : Layout) (l : Listing) (hids : (m.journals.map (·.id)).Nodup) :
    ((StoreRequest.activity l).work.run (k.database m)).1 =
      Halt.refusing ((k.page l m).mapM k.entry) := by
  cases k with
  | values =>
    have hread : (page values l m).mapM (entry values) = .ok (m.activity l) :=
      List.mapM_pure.trans (congrArg Except.ok (List.map_id _))
    rw [database, Store.run_memory, hread]
    rfl
  | rows =>
    have hcall : Backend.call (Call.activity l) m.tables =
        (Halt.refusing ((page rows l m).mapM (entry rows)), m.tables) :=
      congrArg (·, m.tables) (activity_rows l hids)
    rw [database, Store.run_tables]
    exact congrArg Prod.fst ((Work.run_single _ _).trans hcall)

/-! ### Later listings -/

theorem later_iff {T : Type} [LinearOrder T] [DecidableLT T] [BEq T] [LawfulBEq T] (s t : T)
    (a b : Nat) : (decide (t < s) || (s == t && decide (b ≤ a))) = true ↔
      toLex (t, b) ≤ toLex (s, a) := by
  simp only [Prod.Lex.toLex_le_toLex, Bool.or_eq_true, Bool.and_eq_true, decide_eq_true_eq,
    beq_iff_eq, @eq_comm T s t]

/-- Journals are listed by a rank that tells apart all identifiers. -/
theorem exists_rank (k : Layout) : ∃ (T : Type) (_ : LinearOrder T) (rank : JournalEntry → T),
    (∀ a b, k.laterFirst a b = true ↔ rank b ≤ rank a) ∧ ∀ a b, rank a = rank b → a.id = b.id := by
  have hid {T : Type} (time : JournalEntry → T) (a b : JournalEntry)
      (h : toLex (time a, a.id.bits) = toLex (time b, b.id.bits)) : a.id = b.id := by
    rw [Uuid.mk.injEq]
    exact (Prod.mk.inj (toLex_inj.1 h)).2
  cases k with
  | values =>
    exact ⟨Lex (Instant × Nat), inferInstance, fun j => toLex (j.bookedAt, j.id.bits),
      fun a b => later_iff _ _ _ _, hid _⟩
  | rows =>
    refine ⟨Lex (String × Nat), inferInstance, fun j => toLex (j.bookedAt.microText, j.id.bits),
      fun a b => ?_, hid _⟩
    rw [laterFirst, Tables.laterFirst, JournalRow.id_of, JournalRow.id_of, Tables.textLe_toText]
    exact later_iff _ _ _ _

/-- **What is found** stands in the order of the layout. -/
theorem pairwise_found (k : Layout) (l : Listing) (m : Memory) :
    (k.found l m).Pairwise fun a b => k.laterFirst a b = true := by
  obtain ⟨T, _, rank, hrank, -⟩ := k.exists_rank
  have htrans (a b c : JournalEntry) (hab : k.laterFirst a b = true)
      (hbc : k.laterFirst b c = true) : k.laterFirst a c = true := by
    rw [hrank] at hab hbc ⊢
    exact hbc.trans hab
  have htotal (a b : JournalEntry) : (k.laterFirst a b || k.laterFirst b a) = true := by
    rw [Bool.or_eq_true, hrank, hrank]
    exact le_total _ _
  exact List.pairwise_mergeSort htrans htotal _

/-- **What was listed is listed later**, in the same order, if only journals were added. -/
theorem found_sublist (h : m.journals <+: m'.journals) (hids : (m'.journals.map (·.id)).Nodup) :
    (k.found l m).Sublist (k.found l m') := by
  obtain ⟨T, _, rank, hrank, hid⟩ := k.exists_rank
  have hsub : (m.journals.filter (k.concerns l)).Sublist (m'.journals.filter (k.concerns l)) :=
    h.sublist.filter _
  have hsubperm : (k.found l m).Subperm (k.found l m') :=
    ((List.mergeSort_perm _ _).subperm.trans hsub.subperm).trans
      (List.mergeSort_perm _ _).symm.subperm
  obtain ⟨js, hperm, hjs⟩ := hsubperm
  -- both are sorted, and no two journals share a rank
  have heq : js = k.found l m := by
    refine hperm.eq_of_pairwise (fun a b ha hb hab hba => ?_)
      ((k.pairwise_found l m').sublist hjs) (k.pairwise_found l m)
    rw [hrank] at hab hba
    have ha' := (mem_found.1 (hjs.subset ha)).1
    have hb' := h.subset (mem_found.1 hb).1
    exact List.inj_on_of_nodup_map hids ha' hb' (hid a b (le_antisymm hba hab))
  exact heq ▸ hjs

end Layout

end DoubleEntry
