import DoubleEntry.Proofs.AllOrNothing
import DoubleEntry.Proofs.ExactBooks
import DoubleEntry.Service.Listings
import Mathlib.Algebra.Order.Field.Rat
import Mathlib.Data.Rat.Lemmas

/-!
# Pages of statements

A page of the statement of an account shows some of the journals that name the account, one item for
each.  The item tells the currency of the journal and what the account has gained by it: its amount,
read from the text, with the sign of its direction (`StatementItem.Shows`).  Every page that may be
asked for is answered (`Listings.endsOver_statement`).

## Main definitions

* `Decimal.value`: the number that a decimal denotes.
* `StatementItem.movement`: what an item of a statement adds to its account.
* `StatementItem.Shows`: the item shows a journal to an account.
* `StatementQuery.IsAdmissible`, `StatementQuery.atPage`: queries that are answered, and the same
  query for another page.
-/

namespace DoubleEntry

open StatementLine

/-! ### Values -/

namespace Decimal

variable {d : Decimal}

/-- The number that a decimal denotes. -/
def value (d : Decimal) : ℚ := d.numerator / tenPow d.places

theorem value_eq (hd : d.IsSix) : d.value = d.millionths / tenPow amountPlaces := by
  have hp := hd.places_le_six
  have hsplit : (tenPow amountPlaces : ℚ) = tenPow d.places * tenPow (amountPlaces - d.places) := by
    rw [← Nat.cast_mul, ← tenPow_add, Nat.add_sub_cancel' hp]
  have hne : ∀ n, (tenPow n : ℚ) ≠ 0 := fun n => by exact_mod_cast (tenPow_pos n).ne'
  rw [value, millionths, hsplit, div_eq_div_iff (hne _) (mul_ne_zero (hne _) (hne _))]
  push_cast
  ring

/-- **An amount is read from its text**, which has no sign. -/
theorem read_amountText (hd : d.IsSix) (hfit : d.millionths.natAbs < twoPow 96)
    (h0 : 0 ≤ d.millionths) :
    ofText? d.amountText = some d.toAmount ∧ '-' ∉ d.amountText.toList ∧
      d.toAmount.value = d.value := by
  have hs := unsigned_toAmount (hd.unsigned h0)
  obtain ⟨hsix, hm⟩ := toAmount_six hd hfit
  exact ⟨ofText?_toText hs, not_mem_toText hs, by rw [value_eq hsix, value_eq hd, hm]⟩

end Decimal

/-! ### Items -/

/-- The sign of a direction. -/
def Direction.sign : Direction → ℚ
  | .credit => 1
  | .debit => -1

namespace StatementItem

/-- What an item adds to its account: the amount, read from its text, with the sign of its
direction. -/
def movement (i : StatementItem) : ℚ :=
  match Decimal.ofText? i.amount with
  | some d => i.direction.sign * d.value
  | none => 0

/-- The item shows a journal to an account. -/
structure Shows (account : AccountId) (j : JournalEntry) (i : StatementItem) : Prop where
  currency : i.currency = j.currency.code
  readable : (Decimal.ofText? i.amount).isSome
  unsigned : '-' ∉ i.amount.toList
  movement : i.movement = gainOf account j.lines / tenPow Decimal.amountPlaces

variable {account : AccountId} {entries : List JournalEntry} {items : List StatementItem}

theorem exists_of_mem (h : List.Forall₂ (Shows account) entries items) {i : StatementItem}
    (hi : i ∈ items) : ∃ j, Shows account j i := by
  induction h with
  | nil => cases hi
  | cons hshows _ ih =>
    obtain rfl | hi := List.mem_cons.1 hi
    · exact ⟨_, hshows⟩
    · exact ih hi

theorem exists_shows {j : JournalEntry} (h : j.IsExact) (account : AccountId) :
    ∃ line, project j account = some line ∧ Shows account j (ofLine line) := by
  obtain ⟨amount, hproject, hsix, hm, hfit⟩ := exists_project h.lines h.few account
  obtain ⟨hread, hunsigned, hvalue⟩ := Decimal.read_amountText hsix hfit (by omega)
  refine ⟨_, hproject, rfl, ?_, hunsigned, ?_⟩
  · exact Option.isSome_of_eq_some hread
  · have hamount : Decimal.ofText? (ofLine ⟨j.id, j.bookedAt, j.currency,
        if gainOf account j.lines < 0 then .debit else .credit, amount,
        StatementKind.ofMemo j.externalRef, j.externalRef, otherParty account j.lines⟩).amount =
          some amount.toAmount := hread
    rw [StatementItem.movement, hamount]
    simp only [ofLine, hvalue, Decimal.value_eq hsix, hm]
    split_ifs with hneg
    · have habs : ((gainOf account j.lines).natAbs : Int) = -gainOf account j.lines := by omega
      rw [habs, Direction.sign]
      push_cast
      ring
    · have habs : ((gainOf account j.lines).natAbs : Int) = gainOf account j.lines := by omega
      rw [habs, Direction.sign, one_mul]

theorem exists_forall_shows (h : ∀ j ∈ entries, j.IsExact) (account : AccountId) :
    ∃ lines, (entries.mapM fun j => project j account) = some lines ∧
      List.Forall₂ (Shows account) entries (lines.map ofLine) := by
  induction entries with
  | nil => exact ⟨[], rfl, .nil⟩
  | cons j entries ih =>
    obtain ⟨hj, hentries⟩ := List.forall_mem_cons.1 h
    obtain ⟨line, hline, hshows⟩ := exists_shows hj account
    obtain ⟨lines, hlines, hrest⟩ := ih hentries
    refine ⟨line :: lines, ?_, .cons hshows hrest⟩
    simp [List.mapM_cons, hline, hlines]

/-- The names of the other customers change nothing of what is shown. -/
theorem forall_shows_withSummaries (h : List.Forall₂ (Shows account) entries items)
    (summaries : List AccountSummary) :
    List.Forall₂ (Shows account) entries (Listings.withSummaries summaries items) := by
  refine List.forall₂_map_right_iff.2 (h.imp fun j i hi => ?_)
  split
  · exact ⟨hi.currency, hi.readable, hi.unsigned, hi.movement⟩
  · exact hi

end StatementItem

/-! ### Programs -/

namespace Listings

open Program StatementItem

variable {σ : Type} {o : Partners σ} {m : Memory} {f : Bool} {account : AccountId}
  {entries : List JournalEntry} {items : List StatementItem}

/-- A page of a statement is answered, with an item for each of the journals, and the data stay as
they are. -/
def Answers (m : Memory) (account : AccountId) (entries : List JournalEntry)
    (res : Except ServiceError StatementPage) (m' : Memory) : Prop :=
  m' = m ∧ ∃ p, res = .ok p ∧ List.Forall₂ (Shows account) entries p.items

theorem endsOver_finish (c : StatementCommand) (h : List.Forall₂ (Shows account) entries items) :
    (finish c items).EndsOver o m f (Answers m account entries) :=
  endsOver_ask trivial fun _ => endsOver_ask trivial fun _ => endsOver_done ⟨rfl, _, rfl, h⟩

theorem endsOver_enrich {α : Type} {Q : α → Memory → Prop} {k : List StatementItem → Program α}
    (h : List.Forall₂ (Shows account) entries items)
    (hk : ∀ items, List.Forall₂ (Shows account) entries items → (k items).EndsOver o m f Q) :
    (enrich items k).EndsOver o m f Q := by
  unfold enrich
  split
  · exact hk items h
  · refine endsOver_ask trivial fun found => ?_
    cases found with
    | ok summaries => exact hk _ (forall_shows_withSummaries h summaries)
    | error e => exact hk items h

/-- **A page of a statement** shows the journals of the page, if all journals are exact. -/
theorem endsOver_statement (hexact : ∀ j ∈ m.journals, j.IsExact) {account : String}
    {q : StatementQuery} {c : StatementCommand} (hc : StatementCommand.ofQuery account q = .ok c) :
    (statement account q).EndsOver o m f
      (Answers m c.listing.account (m.activity c.listing)) := by
  have hentries : ∀ j ∈ m.activity c.listing, j.IsExact := fun j hj =>
    hexact j (List.mem_of_mem_filter (List.mem_mergeSort.1
      (List.mem_of_mem_drop (List.mem_of_mem_take hj))))
  obtain ⟨lines, hlines, hshows⟩ := exists_forall_shows hentries c.listing.account
  unfold statement
  rw [hc]
  refine endsOver_store rfl rfl ?_
  simp only [stored, hlines]
  split_ifs
  · exact endsOver_enrich hshows fun items h => endsOver_finish c h
  · exact endsOver_finish c hshows

end Listings

/-! ### Queries -/

theorem Field.account_toText (u : AccountId) (field : String) :
    Field.account u.toText field = .ok u := by
  have hchar : ∀ c ∈ u.toText.toList, isBlank c = false ∧ isControl c = false := by
    intro c hc
    rw [Uuid.toText, String.toList_ofList] at hc
    obtain rfl | ⟨d, hd, rfl⟩ := Uuid.mem_toChars hc
    · decide
    · interval_cases d <;> decide
  have hlength : u.toText.toList.length = 36 := by
    rw [Uuid.toText, String.toList_ofList, Uuid.length_toChars]
  have htrim : trim u.toText = u.toText := trim_of_all fun c hc => (hchar c hc).1
  have hrequired : Field.required u.toText field 64 = .ok u.toText := by
    have hne : u.toText ≠ "" := by
      rintro h
      rw [h] at hlength
      exact absurd hlength (by decide)
    refine (Field.required_eq_ok_of ?_ ?_ ?_).trans (congrArg Except.ok htrim) <;> rw [htrim]
    · exact hne
    · omega
    · exact fun c hc => (hchar c hc).2
  simp [Field.account, hrequired, Uuid.ofText?_toText, bind, Except.bind]

theorem Field.window_eq {start stop : Instant} {maxDays : Int}
    (h : (Field.window start stop maxDays).isOk = true) :
    Field.window start stop maxDays = .ok (start, stop) := by
  obtain ⟨w, hw⟩ : ∃ w, Field.window start stop maxDays = .ok w := by
    cases hw : Field.window start stop maxDays with
    | error e => rw [hw] at h; cases h
    | ok w => exact ⟨w, rfl⟩
  rw [hw]
  obtain ⟨start', hstart, hw⟩ := exists_of_bind_eq_ok hw
  obtain ⟨stop', hstop, hw⟩ := exists_of_bind_eq_ok hw
  simp only [Field.timestamp, Field.refuse] at hstart hstop hw
  split_ifs at hstart hstop hw
  cases hstart
  cases hstop
  exact hw.symm

namespace StatementQuery

/-- The span of time and the size of the pages are such as can be asked for. -/
def IsAdmissible (q : StatementQuery) : Prop :=
  (Field.window q.start q.stop StatementCommand.maxDays).isOk = true ∧
    (Field.page q.page q.size).isOk = true

instance (q : StatementQuery) : Decidable q.IsAdmissible := inferInstanceAs (Decidable (_ ∧ _))

/-- The query for another page. -/
def atPage (q : StatementQuery) (n : Nat) : StatementQuery := { q with page := some n }

/-- How many items a page has at most. -/
def pageSize (q : StatementQuery) : Nat := (q.size.filter (0 < ·)).getD Field.defaultPageSize

theorem pageSize_pos (q : StatementQuery) : 0 < q.pageSize := by
  unfold pageSize
  cases h : q.size.filter (0 < ·) with
  | none => decide
  | some n => simpa using (Option.filter_eq_some_iff.1 h).2

/-- **An admissible query** for the statement of an account is carried out on every page. -/
theorem IsAdmissible.ofQuery_eq {q : StatementQuery} (h : q.IsAdmissible) (account : AccountId)
    (n : Nat) : StatementCommand.ofQuery account.toText (q.atPage (n + 1)) =
      .ok ⟨⟨account, q.start, q.stop, n + 1, q.pageSize⟩, q.includeCounterparty⟩ := by
  obtain ⟨hwindow, hpage⟩ := h
  have hpage' : Field.page (some (n + 1)) q.size = .ok (n + 1, q.pageSize) := by
    simp only [Field.page, Field.refuse, pageSize] at hpage ⊢
    split_ifs at hpage ⊢ with hlarge
    · cases hpage
    · rw [Option.filter_some, if_pos (by simp)]
      rfl
  simp [StatementCommand.ofQuery, Listing.ofFields, atPage, Field.account_toText,
    Field.window_eq hwindow, hpage', bind, Except.bind, pure, Except.pure]

end StatementQuery

end DoubleEntry
