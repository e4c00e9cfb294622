import DoubleEntry.Proofs.AgreeingJobs
import DoubleEntry.Proofs.StatementPages
import Mathlib.Algebra.BigOperators.Group.Finset.Piecewise
import Mathlib.Algebra.BigOperators.Group.List.Lemmas

/-!
# Statements add up

Money is neither made nor lost in statements.  Over all its pages the statement of an account adds
up to what the account has gained by its lines in the span of time, and the statements of all
accounts, with the lines that belong to no account, add up to nothing, in each currency
(`Ledger.statements_add_up`).

## Main definitions

* `EntryLine.gain`, `gainOn`: what a line, and all lines of a party, add to it.
* `Memory.bookedLines`: the lines of the journals of a currency within the span of a query.
* `StatementPage.totalIn`: what a page adds up to in a currency.
* `Partners.statementPage`: the answer to a query for a statement.
* `Memory.StatementsAddUp`: what holds of all pages of all statements.
-/

namespace DoubleEntry

open StatementLine

/-! ### Gains -/

/-- What a line adds to its party. -/
def EntryLine.gain (l : EntryLine) : ℚ := l.credit.value - l.debit.value

/-- What the lines of a party, or those of none, add to it. -/
def gainOn (party : Option AccountId) (lines : List EntryLine) : ℚ :=
  ((lines.filter fun l => l.counterparty = party).map EntryLine.gain).sum

variable {lines : List EntryLine} {journal : JournalId}

theorem sum_gain (h : ∀ l ∈ lines, l.IsStored journal) :
    (lines.map EntryLine.gain).sum =
      (sumOf (·.credit) lines - sumOf (·.debit) lines : ℤ) / tenPow Decimal.amountPlaces := by
  induction lines with
  | nil => simp [sumOf]
  | cons l lines ih =>
    obtain ⟨hl, hlines⟩ := List.forall_mem_cons.1 h
    rw [List.map_cons, List.sum_cons, ih hlines, EntryLine.gain, Decimal.value_eq hl.credit.six,
      Decimal.value_eq hl.debit.six]
    simp only [sumOf, List.map_cons, List.sum_cons]
    push_cast
    ring

theorem gainOn_eq (h : ∀ l ∈ lines, l.IsStored journal) (account : AccountId) :
    gainOn (some account) lines = gainOf account lines / tenPow Decimal.amountPlaces :=
  sum_gain fun l hl => h l (List.mem_of_mem_filter hl)

theorem gainOn_flatMap (party : Option AccountId) (entries : List JournalEntry) :
    gainOn party (entries.flatMap (·.lines)) =
      (entries.map fun j => gainOn party j.lines).sum := by
  induction entries with
  | nil => rfl
  | cons j entries ih =>
    rw [List.flatMap_cons, List.map_cons, List.sum_cons, ← ih]
    simp [gainOn]

theorem JournalEntry.IsExact.sum_gain {j : JournalEntry} (h : j.IsExact) :
    (j.lines.map EntryLine.gain).sum = 0 := by
  rw [DoubleEntry.sum_gain h.lines, h.balanced]
  simp

theorem sum_gainOn {parties : Finset AccountId}
    (h : ∀ l ∈ lines, ∀ a, l.counterparty = some a → a ∈ parties) :
    ∑ a ∈ parties, gainOn (some a) lines + gainOn none lines =
      (lines.map EntryLine.gain).sum := by
  induction lines with
  | nil => simp [gainOn]
  | cons l lines ih =>
    obtain ⟨hl, hlines⟩ := List.forall_mem_cons.1 h
    have hsplit (party : Option AccountId) : gainOn party (l :: lines) =
        (if l.counterparty = party then l.gain else 0) + gainOn party lines := by
      simp only [gainOn, List.filter_cons, decide_eq_true_eq]
      split_ifs <;> simp
    rw [List.map_cons, List.sum_cons, ← ih hlines]
    simp only [hsplit, Finset.sum_add_distrib]
    cases hparty : l.counterparty with
    | none =>
      simp
      ring
    | some a =>
      simp [hl a hparty]
      ring

/-! ### Pages -/

theorem sum_pages {α : Type} (l : List α) (g : α → ℚ) (size count : Nat) :
    ∑ n ∈ Finset.range count, (((l.drop (n * size)).take size).map g).sum =
      ((l.take (count * size)).map g).sum := by
  induction count with
  | zero => simp
  | succ count ih =>
    rw [Finset.sum_range_succ, ih, Nat.succ_mul, List.take_add, List.map_append, List.sum_append]

/-- What a page adds up to in a currency. -/
def StatementPage.totalIn (code : String) (p : StatementPage) : ℚ :=
  (p.items.map fun i => if i.currency = code then i.movement else 0).sum

theorem totalIn_eq {account : AccountId} {entries : List JournalEntry} {p : StatementPage}
    (h : List.Forall₂ (StatementItem.Shows account) entries p.items)
    (hexact : ∀ j ∈ entries, j.IsExact) (code : String) :
    p.totalIn code =
      (entries.map fun j => if j.currency.code = code then gainOn (some account) j.lines else 0).sum
    := by
  obtain ⟨items, page, size⟩ := p
  rw [StatementPage.totalIn]
  dsimp only at h ⊢
  induction h with
  | nil => rfl
  | cons hi _ ih =>
    obtain ⟨hj, hentries⟩ := List.forall_mem_cons.1 hexact
    rw [List.map_cons, List.map_cons, List.sum_cons, List.sum_cons, ih hentries, hi.currency,
      hi.movement, gainOn_eq hj.lines]

namespace Memory

/-- The journals of a currency within the span of a query. -/
def booked (m : Memory) (q : StatementQuery) (code : String) : List JournalEntry :=
  m.journals.filter fun j =>
    decide (q.start ≤ j.bookedAt) && decide (j.bookedAt ≤ q.stop) && j.currency.code == code

/-- The lines of these journals. -/
def bookedLines (m : Memory) (q : StatementQuery) (code : String) : List EntryLine :=
  (m.booked q code).flatMap (·.lines)

/-- The accounts that are named in journals. -/
def parties (m : Memory) : Finset AccountId :=
  ((m.journals.flatMap (·.lines)).filterMap (·.counterparty)).toFinset

/-- All that an account's listing can show. -/
def found (m : Memory) (q : StatementQuery) (account : AccountId) : List JournalEntry :=
  (m.journals.filter (concerns ⟨account, q.start, q.stop, 1, q.pageSize⟩)).mergeSort laterFirst

variable {m : Memory} {q : StatementQuery} {account : AccountId}

theorem length_found_le : (m.found q account).length ≤ m.journals.length := by
  rw [found, List.length_mergeSort]
  exact List.length_filter_le ..

theorem activity_eq (n : Nat) : m.activity ⟨account, q.start, q.stop, n + 1, q.pageSize⟩ =
    ((m.found q account).drop (n * q.pageSize)).take q.pageSize := by
  simp only [activity, found, pageStart, Nat.le_add_left, Nat.max_eq_left, Nat.add_sub_cancel]
  rfl

/-- The listing of an account leaves out only journals that add nothing to it. -/
theorem sum_found (code : String) :
    ((m.found q account).map fun j =>
        if j.currency.code = code then gainOn (some account) j.lines else 0).sum =
      gainOn (some account) (m.bookedLines q code) := by
  rw [bookedLines, gainOn_flatMap, found, ((List.mergeSort_perm _ _).map _).sum_eq, booked]
  induction m.journals with
  | nil => rfl
  | cons j entries ih =>
    have hunnamed (h : ¬ j.lines.any (fun l => l.counterparty = some account) = true) :
        gainOn (some account) j.lines = 0 := by
      have hnone : j.lines.filter (fun l => l.counterparty = some account) = [] := by
        simpa [List.filter_eq_nil_iff] using h
      simp [gainOn, hnone]
    simp only [List.filter_cons, concerns, Bool.and_eq_true, decide_eq_true_eq, beq_iff_eq]
    by_cases hspan : q.start ≤ j.bookedAt ∧ j.bookedAt ≤ q.stop
    · by_cases hnamed : j.lines.any (fun l => l.counterparty = some account) = true
      · by_cases hcode : j.currency.code = code
        · simp [hspan, hnamed, hcode, ih]
        · simp [hspan, hnamed, hcode, ih]
      · by_cases hcode : j.currency.code = code
        · simp [hspan, hnamed, hcode, ih, hunnamed hnamed]
        · simp [hspan, hnamed, hcode, ih]
    · simp [hspan, ih]

theorem mem_parties {code : String} {l : EntryLine} (hl : l ∈ m.bookedLines q code) {a : AccountId}
    (ha : l.counterparty = some a) : a ∈ m.parties := by
  obtain ⟨j, hj, hl⟩ := List.mem_flatMap.1 hl
  rw [parties, List.mem_toFinset, List.mem_filterMap]
  exact ⟨l, List.mem_flatMap.2 ⟨j, List.mem_of_mem_filter hj, hl⟩, ha⟩

theorem sum_bookedLines (hexact : ∀ j ∈ m.journals, j.IsExact) (code : String) :
    ((m.bookedLines q code).map EntryLine.gain).sum = 0 := by
  have hbooked : ∀ j ∈ m.booked q code, j.IsExact := fun j hj =>
    hexact j (List.mem_of_mem_filter hj)
  rw [bookedLines]
  generalize m.booked q code = entries at hbooked
  induction entries with
  | nil => rfl
  | cons j entries ih =>
    obtain ⟨hj, hentries⟩ := List.forall_mem_cons.1 hbooked
    rw [List.flatMap_cons, List.map_append, List.sum_append, hj.sum_gain, ih hentries, add_zero]

end Memory

/-! ### All pages of all statements -/

/-- The page that a program ends with; none if it crashes or fails. -/
def StatementPage.ofEnd? : Option (Except ServiceError StatementPage) → Option StatementPage
  | some (.ok p) => some p
  | _ => none

/-- The answer to a query for the statement of an account. -/
def Partners.statementPage {σ : Type} (o : Partners σ) (m : Memory) (f : Bool) (x : σ)
    (account : AccountId) (q : StatementQuery) : Option StatementPage :=
  StatementPage.ofEnd? ((Listings.statement account.toText q).run o.world (.ofMemory m f, x)).1

namespace Memory

/-- What so many pages of the statement of an account add up to in a currency. -/
def statementTotal (page : AccountId → Nat → Option StatementPage) (count : Nat)
    (account : AccountId) (code : String) : ℚ :=
  ∑ n ∈ Finset.range count, (page account n).elim 0 (StatementPage.totalIn code)

/-- What holds of the pages of all statements, the first page being the one of number nought. -/
structure StatementsAddUp (m : Memory) (q : StatementQuery)
    (page : AccountId → Nat → Option StatementPage) : Prop where
  /-- Every page is answered. -/
  answered : ∀ account n, (page account n).isSome
  /-- The amounts can be read, and none is written with a sign. -/
  unsigned : ∀ account n p, page account n = some p → ∀ i ∈ p.items,
    (Decimal.ofText? i.amount).isSome ∧ '-' ∉ i.amount.toList
  /-- There are no more pages with items than journals. -/
  ends : ∀ account n p, page account n = some p → m.journals.length ≤ n → p.items = []
  /-- The statement of an account adds up to what its lines add. -/
  own : ∀ account code, statementTotal page m.journals.length account code =
    gainOn (some account) (m.bookedLines q code)
  /-- All statements, with the lines of no account, add up to nothing. -/
  all : ∀ code, ∑ account ∈ m.parties, statementTotal page m.journals.length account code +
    gainOn none (m.bookedLines q code) = 0

variable {σ : Type} {m : Memory} {q : StatementQuery}

theorem exists_statementPage (hexact : ∀ j ∈ m.journals, j.IsExact) (hq : q.IsAdmissible)
    (o : Partners σ) (f : Bool) (x : σ) (account : AccountId) (n : Nat) :
    ∃ p, o.statementPage m f x account (q.atPage (n + 1)) = some p ∧
      List.Forall₂ (StatementItem.Shows account)
        (((m.found q account).drop (n * q.pageSize)).take q.pageSize) p.items := by
  have hends : (Listings.statement account.toText (q.atPage (n + 1))).EndsOver o m f
      (Listings.Answers m account (m.activity ⟨account, q.start, q.stop, n + 1, q.pageSize⟩)) :=
    Listings.endsOver_statement hexact (hq.ofQuery_eq account n)
  obtain ⟨res, m', f', x', hrun, -, p, rfl, hshows⟩ := hends x
  rw [activity_eq] at hshows
  refine ⟨p, ?_, hshows⟩
  rw [Partners.statementPage, hrun, StatementPage.ofEnd?]

theorem statementsAddUp (hexact : ∀ j ∈ m.journals, j.IsExact) (hq : q.IsAdmissible)
    (o : Partners σ) (f : Bool) (x : AccountId → Nat → σ) : m.StatementsAddUp q
      fun account n => o.statementPage m f (x account n) account (q.atPage (n + 1)) := by
  have hpage (account : AccountId) (n : Nat) :=
    exists_statementPage hexact hq o f (x account n) account n
  have hfound (account : AccountId) : ∀ j ∈ m.found q account, j.IsExact := fun j hj =>
    hexact j (List.mem_of_mem_filter (List.mem_mergeSort.1 hj))
  have hown (account : AccountId) (code : String) : statementTotal
      (fun account n => o.statementPage m f (x account n) account (q.atPage (n + 1)))
      m.journals.length account code = gainOn (some account) (m.bookedLines q code) := by
    have hlength : (m.found q account).length ≤ m.journals.length * q.pageSize :=
      length_found_le.trans (Nat.le_mul_of_pos_right _ q.pageSize_pos)
    rw [← sum_found, ← List.take_of_length_le hlength, ← sum_pages, statementTotal]
    refine Finset.sum_congr rfl fun n _ => ?_
    obtain ⟨p, hp, hshows⟩ := hpage account n
    rw [hp, Option.elim_some, totalIn_eq hshows fun j hj =>
      hfound account j (List.mem_of_mem_drop (List.mem_of_mem_take hj))]
  refine ⟨fun account n => ?_, fun account n p hp i hi => ?_, fun account n p hp hn => ?_, hown,
    fun code => ?_⟩
  · obtain ⟨p, hp, -⟩ := hpage account n
    exact Option.isSome_of_eq_some hp
  · obtain ⟨p', hp', hshows⟩ := hpage account n
    obtain rfl : p' = p := Option.some.inj (hp'.symm.trans hp)
    obtain ⟨j, hshow⟩ := StatementItem.exists_of_mem hshows hi
    exact ⟨hshow.readable, hshow.unsigned⟩
  · obtain ⟨p', hp', hshows⟩ := hpage account n
    obtain rfl : p' = p := Option.some.inj (hp'.symm.trans hp)
    have hlength : (m.found q account).length ≤ n * q.pageSize :=
      (length_found_le.trans hn).trans (Nat.le_mul_of_pos_right _ q.pageSize_pos)
    rw [List.drop_of_length_le hlength, List.take_nil] at hshows
    cases h : p'.items with
    | nil => rfl
    | cons i is =>
      rw [h] at hshows
      cases hshows
  · simp only [hown]
    rw [sum_gainOn fun l hl a => mem_parties hl]
    exact sum_bookedLines hexact code

end Memory

namespace Ledger

variable {ι σ : Type} [DecidableEq ι]

/-- **Statements add up.**  Whatever jobs were carried out over a ledger, and whatever the accounts
service and the audit answer to each query, the pages of every statement that can be asked for add
up to what the account has gained in the span of time, and all statements, with the lines of no
account, add up to nothing. -/
theorem statements_add_up (f : Bool) (jobs : ι → Job) (ms : List (Move ι)) (o : Partners σ)
    (g : Bool) (x : AccountId → Nat → σ) {q : StatementQuery} (hq : q.IsAdmissible) :
    ((start .empty f jobs).after ms).memory.StatementsAddUp q fun account n =>
      o.statementPage ((start .empty f jobs).after ms).memory g (x account n) account
        (q.atPage (n + 1)) :=
  Memory.statementsAddUp (fun _ hj => isExact_of_mem f jobs ms hj) hq o g x

/-- Noon of the first day of a year. -/
def noon : Instant := (Instant.of? 1704110400 0).getD .epoch

/-- The first day of the year, in pages of one item each. -/
def firstDay : StatementQuery where
  start := (Instant.of? 1704067200 0).getD .epoch
  stop := (Instant.of? 1704153600 0).getD .epoch
  page := none
  size := some 1
  includeCounterparty := true

/-- A payment, and a top-up of another account. -/
def noonJobs : Bool → Job
  | true => .post raceRequest
  | false => .credit { Session.bonus with account := (Uuid.ofNat 3).toText }

/-- At noon the payment is made, and then the top-up. -/
def noonMoves : List (Move Bool) :=
  [0, 0, 1, 0, 0, 3, 4, 5, 6, 0, 0].map (fun id => .turn true (.granting noon (.ofNat id))) ++
    [0, 0, 0, 13, 14, 15, 16, 0, 0].map fun id => .turn false (.granting noon (.ofNat id))

/-- The data after the payment and the top-up. -/
def noonMemory : Memory := ((start .empty false noonJobs).after noonMoves).memory

/-- The directions and amounts on the first page of a statement of the first day. -/
def noonPage (account : Nat) : List (Direction × String) :=
  ((Partners.granting.statementPage noonMemory false 1 (.ofNat account) (firstDay.atPage 1)).elim []
    (·.items)).map fun i => (i.direction, i.amount)

/-- The statements of the payer, of the payee and of the account that was topped up have an item
each, and they add up. -/
theorem statements_add_up_noon : firstDay.IsAdmissible ∧
    noonPage 1 = [(.debit, "10.000000")] ∧ noonPage 2 = [(.credit, "10.000000")] ∧
    noonPage 3 = [(.credit, "5.000000")] ∧
    noonMemory.StatementsAddUp firstDay fun account n =>
      Partners.granting.statementPage noonMemory false 1 account (firstDay.atPage (n + 1)) := by
  have hq : firstDay.IsAdmissible := by decide +kernel
  exact ⟨hq, by decide +kernel, by decide +kernel, by decide +kernel,
    statements_add_up false noonJobs noonMoves .granting false (fun _ _ => 1) hq⟩

end Ledger

end DoubleEntry
