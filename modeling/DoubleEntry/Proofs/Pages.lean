import DoubleEntry.Proofs.LastingFacts
import DoubleEntry.Proofs.ReachedStores
import DoubleEntry.Proofs.StatementPages

/-!
# Pages of a listing

Over a store that can be reached, the pages of the journals of an account are cut from one list.  It
has each journal of the account that the store answers, booked within the span of time, and it is
ordered strictly: the latest first, and of two of one time the one with the larger identifier.  So
no journal is lost or repeated where one page ends and the next begins
(`Store.Reached.exists_pages`).
In tables times are compared by their texts, which agree with the times of whole microseconds.

## Main definitions

* `JournalEntry.Precedes`: the order of a listing. `Listing.Covers`: a journal belongs to a listing.
* `Layout.listed`: the list that the pages are cut from.
* `Listing.IsPaged`: a list, its pages, and how many of these are not empty.

## Main results

* `Layout.pairwise_listed`, `Store.mem_listed`: what the list is.
* `Store.replies_page`: what a page is.
-/

namespace DoubleEntry

/-- One journal stands before another in a listing: it was booked later, or at the same time and has
the larger identifier. -/
def JournalEntry.Precedes (a b : JournalEntry) : Prop :=
  b.bookedAt < a.bookedAt ∨ a.bookedAt = b.bookedAt ∧ b.id.bits < a.id.bits

/-- The journal was booked within the span of time, and one of its lines names the account. -/
structure Listing.Covers (l : Listing) (j : JournalEntry) : Prop where
  start_le : l.start ≤ j.bookedAt
  le_stop : j.bookedAt ≤ l.stop
  named : ∃ line ∈ j.lines, line.counterparty = some l.account

/-- Both ends of the span of time are whole microseconds. -/
structure Listing.IsWhole (l : Listing) : Prop where
  start : l.start.IsWhole
  stop : l.stop.IsWhole

theorem Tables.activity_congr {t : Tables} (t' : Tables) (hjournals : t.journals = t'.journals)
    (hlines : t.lines = t'.lines) (l : Listing) : t.activity l = t'.activity l := by
  have hconcerns : concerns l t = concerns l t' := by
    funext r
    simp only [concerns, hlines]
  rw [activity, activity, hjournals, hconcerns, readJournal_congr t' hlines]

namespace Layout

variable {k : Layout} {l : Listing} {js : List JournalEntry} {d : Database} {a b j : JournalEntry}

/-- The journals of a listing in their order, as they are kept. -/
def listed (k : Layout) (l : Listing) (js : List JournalEntry) : List JournalEntry :=
  (k.found l (.ofJournals js)).map k.kept

/-! ### Which journals are listed -/

/-- What tables keep of a time is before a whole microsecond as its text is before that one's. -/
theorem textLe_truncate {i i' : Instant} (hi : i.IsWhole) (hi' : i'.InFourDigits) :
    (Tables.textLe i.microText i'.microText = true ↔ i ≤ i'.truncate) ∧
      (Tables.textLe i'.microText i.microText = true ↔ i'.truncate ≤ i) := by
  have hwhole := Instant.isWhole_truncate hi'.1 hi'.2
  rw [← Instant.microText_truncate i', Tables.textLe_microText hi hwhole,
    Tables.textLe_microText hwhole hi]
  exact ⟨decide_eq_true_iff, decide_eq_true_iff⟩

theorem canRead_of_concerns (hl : l.start.InFourDigits) (h : k.concerns l j = true) :
    k.CanRead j := fun hk => inFourDigits_of_concerns hl h hk

/-- **A journal belongs to a listing** as it is kept. -/
theorem concerns_iff (hwhole : k = .rows → l.IsWhole) (hj : k.CanRead j) :
    k.concerns l j = true ↔ l.Covers (k.kept j) := by
  have hnamed (lines : List EntryLine) :
      (lines.any fun line => line.counterparty = some l.account) = true ↔
        ∃ line ∈ lines, line.counterparty = some l.account := by
    simp only [List.any_eq_true, decide_eq_true_eq]
  cases k with
  | values =>
    simp only [concerns, Memory.concerns, Bool.and_eq_true, decide_eq_true_eq, hnamed, kept]
    exact ⟨fun h => ⟨h.1.1, h.1.2, h.2⟩, fun h => ⟨⟨h.start_le, h.le_stop⟩, h.named⟩⟩
  | rows =>
    have hstart := (textLe_truncate (hwhole rfl).start (hj rfl)).1
    have hstop := (textLe_truncate (hwhole rfl).stop (hj rfl)).2
    have hkept : (∃ line ∈ j.kept.lines, line.counterparty = some l.account) ↔
        ∃ line ∈ j.lines, line.counterparty = some l.account := by
      simp [JournalEntry.kept, EntryLine.kept, EntryLine.atSix]
    simp only [concerns, Bool.and_eq_true, hstart, hstop, hnamed, ← hkept, kept]
    exact ⟨fun h => ⟨h.1.1, h.1.2, h.2⟩, fun h => ⟨⟨h.start_le, h.le_stop⟩, h.named⟩⟩

theorem precedes_of_laterFirst (ha : k.CanRead a) (hb : k.CanRead b) (hid : a.id ≠ b.id)
    (h : k.laterFirst a b = true) : (k.kept a).Precedes (k.kept b) := by
  have hbits (hle : b.id.bits ≤ a.id.bits) : b.id.bits < a.id.bits :=
    lt_of_le_of_ne hle fun heq => hid (by rw [Uuid.mk.injEq]; exact heq.symm)
  cases k with
  | values =>
    simp only [laterFirst, Memory.laterFirst, Bool.or_eq_true, Bool.and_eq_true, beq_iff_eq,
      decide_eq_true_eq] at h
    exact h.imp_right fun h => ⟨h.1, hbits h.2⟩
  | rows =>
    have ha' := Instant.isWhole_truncate (ha rfl).1 (ha rfl).2
    have hb' := Instant.isWhole_truncate (hb rfl).1 (hb rfl).2
    have hlt := Instant.microText_lt_iff hb' ha'
    have heq := Instant.microText_inj ha' hb'
    rw [Instant.microText_truncate, Instant.microText_truncate] at hlt heq
    simp only [laterFirst, Tables.laterFirst, JournalRow.of, Tables.textLe_toText, Bool.or_eq_true,
      Bool.and_eq_true, beq_iff_eq, decide_eq_true_eq, hlt, heq] at h
    simp only [JournalEntry.Precedes, kept, JournalEntry.kept]
    exact h.imp_right fun h => ⟨h.1, hbits h.2⟩

theorem pairwise_listed (hids : (js.map (·.id)).Nodup) (hl : l.start.InFourDigits) :
    (k.listed l js).Pairwise JournalEntry.Precedes := by
  have hfound : ((k.found l (.ofJournals js)).map (·.id)).Nodup :=
    ((List.mergeSort_perm _ _).map _).nodup_iff.2 ((List.filter_sublist.map _).nodup hids)
  have hboth := (k.pairwise_found l (.ofJournals js)).and (List.pairwise_map.1 hfound)
  refine List.pairwise_map.2 (hboth.imp_of_mem fun {a b} ha hb h => ?_)
  exact precedes_of_laterFirst (canRead_of_concerns hl (mem_found.1 ha).2)
    (canRead_of_concerns hl (mem_found.1 hb).2) h.2 h.1

/-! ### Pages that are read -/

theorem mapM_entry (hunsigned : ∀ j ∈ js, ∀ l ∈ j.lines, l.IsUnsigned)
    (hl : l.start.InFourDigits) : (k.page l (.ofJournals js)).mapM k.entry =
      .ok (((k.listed l js).drop (Memory.pageStart l.page l.size)).take l.size) := by
  have hentry : ∀ j ∈ k.page l (.ofJournals js), k.entry j = pure (k.kept j) := by
    intro j hj
    obtain ⟨hmem, hconcerns⟩ := mem_found.1 (mem_found_of_mem_page hj)
    exact (entry_eq_ok_iff (hunsigned j hmem)).2 ⟨canRead_of_concerns hl hconcerns, rfl⟩
  rw [mapM_congr hentry, List.mapM_pure, page, listed, List.map_take, List.map_drop]
  rfl

/-- **A page is looked up** in the journals that are kept. -/
theorem Journals.call_activity (h : k.Journals js d) (l : Listing) :
    (Backend.call (.activity l) d).1 =
      Halt.refusing ((k.page l (.ofJournals js)).mapM k.entry) := by
  obtain ⟨hdata, hids, -⟩ := h
  cases hdata with
  | memory m =>
    have hread : (page .values l (.ofJournals m.journals)).mapM (entry .values) =
        .ok (m.activity l) := List.mapM_pure.trans (congrArg Except.ok (List.map_id _))
    rw [hread]
    rfl
  | @tables js t journals lines =>
    have hcall : (Backend.call (.activity l) (Database.tables t)).1 = t.activity l := rfl
    rw [hcall, Tables.activity_congr (Memory.ofJournals js).tables journals lines]
    exact activity_rows l hids

end Layout

namespace Store

variable {s : Store} {k : Layout} {js : List JournalEntry} {l : Listing} {account : String}
  {q : ActivityQuery}

/-- **Which journals are listed**: those that are answered and belong to the listing. -/
theorem mem_listed (h : k.Journals js s.data) (hr : s.readsData = true)
    (hl : l.start.InFourDigits) (hwhole : k = .rows → l.IsWhole) {j : JournalEntry} :
    j ∈ k.listed l js ↔ s.Answers j ∧ l.Covers j := by
  rw [answers_iff h hr, Layout.listed, List.mem_map]
  constructor
  · rintro ⟨j', hj', rfl⟩
    obtain ⟨hmem, hconcerns⟩ := Layout.mem_found.1 hj'
    have hcan := Layout.canRead_of_concerns hl hconcerns
    exact ⟨⟨j', hmem, hcan, rfl⟩, (Layout.concerns_iff hwhole hcan).1 hconcerns⟩
  · rintro ⟨⟨j', hmem, hcan, rfl⟩, hcovers⟩
    exact ⟨j', Layout.mem_found.2 ⟨hmem, (Layout.concerns_iff hwhole hcan).2 hcovers⟩, rfl⟩

/-- **What a page is**: a part of the list, as it is shown. -/
theorem replies_page (h : k.Journals js s.data) (hr : s.readsData = true)
    (asks : Listing.ofQuery account q = .ok l) : s.Replies (.journals account q) (.listed (.ok
      ⟨(((k.listed l js).drop (Memory.pageStart l.page l.size)).take l.size).map
        JournalView.ofEntry, l.page, l.size⟩)) := by
  have hyear := Field.inFourDigits_start (Listing.fields_of_ofQuery asks).2.1
  have hserve : (s.serve (.activity l)).1 = Halt.refusing (.ok
      (((k.listed l js).drop (Memory.pageStart l.page l.size)).take l.size)) := by
    have hcall : (s.serve (.activity l)).1 = (Backend.call (.activity l) s.data).1 := by
      rw [serve, if_neg (by simp [StoreRequest.writes]), read, view, if_pos hr]
      exact congrArg Prod.fst (Work.run_single _ _)
    rw [hcall, h.call_activity, Layout.mapM_entry h.unsigned hyear]
  intro w
  have hanswer : w.answer (.store (.activity l)) s = (some (.ok
      (((k.listed l js).drop (Memory.pageStart l.page l.size)).take l.size)), s) := by
    rw [Surroundings.answer, serve_snd rfl, hserve]
    rfl
  have hrun : ((Listings.journals account q).run w.answer s).1 = some (.ok
      ⟨(((k.listed l js).drop (Memory.pageStart l.page l.size)).take l.size).map
        JournalView.ofEntry, l.page, l.size⟩) := by
    rw [Listings.journals_eq asks]
    exact congrArg Prod.fst (Program.run_ask hanswer)
  rw [Job.program, Program.run_map, hrun]
  rfl

end Store

/-! ### From pages to the list -/

section

variable {α : Type} (as : List α) {size : Nat}

/-- A page of a list; the first one is that of nought. -/
def pageOf (size n : Nat) : List α := (as.drop (n * size)).take size

/-- How many pages of a list are not empty. -/
def pageCount (size : Nat) : Nat := (as.length + size - 1) / size

theorem lt_pageCount (hsize : 0 < size) {n : Nat} :
    n < pageCount as size ↔ n * size < as.length := by
  rw [pageCount, Nat.lt_iff_add_one_le, Nat.le_div_iff_mul_le hsize, Nat.succ_mul]
  omega

theorem flatMap_pageOf (size n : Nat) :
    (List.range n).flatMap (pageOf as size) = as.take (n * size) := by
  induction n with
  | zero => simp
  | succ n ih =>
    rw [List.range_succ, List.flatMap_append, ih, List.flatMap_singleton, pageOf, Nat.succ_mul,
      List.take_add]

theorem length_pageOf (size n : Nat) :
    (pageOf as size n).length = min size (as.length - n * size) := by
  rw [pageOf, List.length_take, List.length_drop]

end

/-- A list of journals, the pages that show it, and how many of these are not empty. -/
structure Listing.IsPaged (l : Listing) (listed : List JournalEntry)
    (pages : Nat → List JournalView) (count : Nat) : Prop where
  /-- No journal stands twice in the list. -/
  sorted : listed.Pairwise JournalEntry.Precedes
  /-- All pages one after another are the list. -/
  whole : ∀ n, count ≤ n → (List.range n).flatMap pages = listed.map JournalView.ofEntry
  nonempty : ∀ n < count, pages n ≠ []
  full : ∀ n, n + 1 < count → (pages n).length = l.size
  empty : ∀ n, count ≤ n → pages n = []

theorem Listing.isPaged_pageOf {l : Listing} (hsize : 0 < l.size) {listed : List JournalEntry}
    (hsorted : listed.Pairwise JournalEntry.Precedes) :
    l.IsPaged listed (pageOf (listed.map JournalView.ofEntry) l.size)
      (pageCount (listed.map JournalView.ofEntry) l.size) := by
  generalize hviews : listed.map JournalView.ofEntry = views
  have hlt (n : Nat) := lt_pageCount views hsize (n := n)
  refine ⟨hsorted, fun n hn => ?_, fun n hn => ?_, fun n hn => ?_, fun n hn => ?_⟩
  · have hle := mt (hlt n).2 hn.not_gt
    rw [hviews, flatMap_pageOf, List.take_of_length_le (by omega)]
  · have hbehind := (hlt n).1 hn
    rw [← List.length_pos_iff, length_pageOf]
    omega
  · have hbehind := (hlt (n + 1)).1 hn
    rw [Nat.succ_mul] at hbehind
    rw [length_pageOf]
    omega
  · have hle := mt (hlt n).2 hn.not_gt
    rw [← List.length_eq_zero_iff, length_pageOf]
    omega

theorem Field.size_le {page size : Option Nat} {p n : Nat} (h : Field.page page size = .ok (p, n)) :
    n ≤ maxPageSize := by
  rw [Field.page] at h
  split_ifs at h with hlarge
  · cases h
  · cases h
    exact not_lt.1 hlarge

namespace Store.Reached

/-- **The pages of a listing**, over any store that can be reached and whose reads go to its data:
all journals of the account that the store answers and that were booked within the span of time are
on the pages, each once and in the order of the listing.  All pages but the last are full, and
behind it all are empty, up to the last number of 32 bits. -/
theorem exists_pages {s : Store} (h : s.Reached) (hr : s.readsData = true) {account : String}
    {q : ActivityQuery} {l : Listing} (asks : Listing.ofQuery account q = .ok l)
    (hwhole : ∀ t, s.data = .tables t → l.IsWhole) :
    ∃ (listed : List JournalEntry) (pages : Nat → List JournalView) (count : Nat),
      (∀ j, j ∈ listed ↔ s.Answers j ∧ l.Covers j) ∧
      l.IsPaged listed pages count ∧
      (∀ n, s.Replies (.journals account { q with page := some (n + 1) })
        (.listed (.ok ⟨pages n, n + 1, l.size⟩))) ∧
      ∀ n < 2 ^ 32, Memory.pageStart n l.size < 2 ^ 63 := by
  obtain ⟨k, js, hjournals⟩ := h.exists_journals
  obtain ⟨-, hwindow, hpage⟩ := Listing.fields_of_ofQuery asks
  have hyear := Field.inFourDigits_start hwindow
  have hrows : k = .rows → l.IsWhole := by
    rintro rfl
    cases hdata : s.data with
    | tables t => exact hwhole t hdata
    | _ =>
      have hholds := hjournals.data
      rw [hdata] at hholds
      cases hholds
  refine ⟨k.listed l js, _, _, fun j => mem_listed hjournals hr hyear hrows,
    Listing.isPaged_pageOf (Field.size_pos hpage) (Layout.pairwise_listed hjournals.ids hyear),
    fun n => ?_, fun n hn => ?_⟩
  · have hreplies := replies_page hjournals hr (Listing.ofQuery_page asks n)
    have hstart : Memory.pageStart (n + 1) l.size = n * l.size := by
      rw [Memory.pageStart, Nat.max_eq_left (Nat.le_add_left 1 n), Nat.add_sub_cancel]
    rw [hstart] at hreplies
    rw [pageOf, ← List.map_drop, ← List.map_take]
    exact hreplies
  · have hsize : l.size ≤ 200 := Field.size_le hpage
    have hmul : (max n 1 - 1) * l.size ≤ 2 ^ 32 * 200 := Nat.mul_le_mul (by omega) hsize
    exact hmul.trans_lt (by decide)

/-- A journal of the first day of a year, which debits a customer. -/
def newYearJournal (n : Nat) : JournalEntry where
  id := .ofNat n
  externalRef := ""
  bookedAt := (Instant.of? 1704110400 0).getD .epoch
  createdBy := "ops"
  status := .posted
  currency := ⟨"EUR", rfl, rfl⟩
  lines := [.ofDebit (.ofNat (n + 10)) (.ofNat n) .outgoing (some (.ofNat 7))
      ((Decimal.ofText? "1").getD .zero),
    .ofCredit (.ofNat (n + 20)) (.ofNat n) .incoming none ((Decimal.ofText? "1").getD .zero)]

/-- Tables with two journals of one time. -/
def twoJournals : Store :=
  ((ofTables .empty).write (.insertAll
    [.journal (newYearJournal 1), .journal (newYearJournal 2)])).2

/-- The journals of that day, one on each page. -/
def newYearQuery : ActivityQuery :=
  ⟨(Instant.of? 1704067200 0).getD .epoch, (Instant.of? 1704153599 0).getD .epoch, none, some 1⟩

theorem pages_of_twoJournals :
    let l : Listing := ⟨.ofNat 7, newYearQuery.start, newYearQuery.stop, 1, 1⟩
    twoJournals.Reached ∧ twoJournals.readsData = true ∧
      Listing.ofQuery (Uuid.toText (.ofNat 7)) newYearQuery = .ok l ∧
      (∀ t, twoJournals.data = .tables t → l.IsWhole) ∧
      ∃ (listed : List JournalEntry) (pages : Nat → List JournalView) (count : Nat),
        (∀ j, j ∈ listed ↔ twoJournals.Answers j ∧ l.Covers j) ∧
        l.IsPaged listed pages count ∧
        ∀ n, twoJournals.Replies (.journals (Uuid.toText (.ofNat 7))
          { newYearQuery with page := some (n + 1) }) (.listed (.ok ⟨pages n, n + 1, l.size⟩)) := by
  intro l
  have hreached : twoJournals.Reached := .write (.opened Ledger.open?_tables) _
  have hreads : twoJournals.readsData = true := by decide +kernel
  have asks : Listing.ofQuery (Uuid.toText (.ofNat 7)) newYearQuery = .ok l := by
    have hwindow : Field.window newYearQuery.start newYearQuery.stop Listing.maxDays =
        .ok (newYearQuery.start, newYearQuery.stop) := by decide +kernel
    simp only [Listing.ofQuery, Listing.ofFields, Field.account_toText, hwindow, bind, Except.bind]
    rfl
  have hwhole : l.IsWhole := by
    constructor <;> constructor <;> decide +kernel
  obtain ⟨listed, pages, count, hmem, hpaged, hreplies, -⟩ :=
    hreached.exists_pages hreads asks fun _ _ => hwhole
  exact ⟨hreached, hreads, asks, fun _ _ => hwhole, listed, pages, count, hmem, hpaged, hreplies⟩

end Store.Reached

end DoubleEntry
