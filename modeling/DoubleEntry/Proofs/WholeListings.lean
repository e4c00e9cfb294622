import DoubleEntry.Proofs.Replies

/-!
# Listings that are read to their end

Whatever was carried out over a store, every page of the journals of an account can be read: the
journals of a ledger have no signed amounts, and those within a span of time that can be asked for
are of years that are written with four digits (`Ledger.Filled.exists_page`).  So a listing can be
read to its end (`Ledger.Filled.exists_lists`), and although the store may change between two of its
pages, each journal that was found before the first page is on one of them
(`Ledger.Filled.mem_of_lists`).

## Main definitions

* `Ledger.Lists`: the pages of a listing, one after another.
-/

namespace DoubleEntry

/-! ### Journals that can be read -/

namespace Instant

variable {i j : Instant}

theorem exists_sign (h : ¬ i.InFourDigits) :
    ∃ c cs, i.microText.toList = c :: cs ∧ (c = '-' ∨ c = '+') := by
  have hyear : yearChars i.year =
      (if i.year < 0 then '-' else '+') :: paddedDigits 4 i.year.natAbs := if_neg h
  obtain ⟨cs, hcs⟩ : ∃ cs, i.microText.toList = yearChars i.year ++ cs := by
    simp only [microText, String.toList_ofList, secondChars, List.append_assoc]
    exact ⟨_, rfl⟩
  refine ⟨_, _, by rw [hcs, hyear]; rfl, ?_⟩
  split_ifs
  · exact .inl rfl
  · exact .inr rfl

theorem exists_digit (h : i.InFourDigits) :
    ∃ c cs, i.microText.toList = c :: cs ∧ (digitValue? c).isSome = true := by
  obtain ⟨c, cs, hcs⟩ := List.exists_cons_of_length_pos
    (by simp : 0 < (digitsAt 10 4 i.year.toNat).length)
  refine ⟨c, _, by rw [toList_microText h.1 h.2, hcs]; rfl, ?_⟩
  exact isSome_digitValue?_of_mem (hcs ▸ List.mem_cons_self : c ∈ digitsAt 10 4 i.year.toNat)

theorem sign_lt_digit {c d : Char} (hc : c = '-' ∨ c = '+') (hd : (digitValue? d).isSome = true) :
    c < d := by
  have hd48 : 48 ≤ d.toNat := by
    unfold digitValue? at hd
    split_ifs at hd with hdigit
    · exact hdigit.1
    · cases hd
  have hc48 : c.toNat < 48 := by
    obtain rfl | rfl := hc <;> decide
  exact hc48.trans_le hd48

/-- A text that is not before one of a year with four digits is of such a year as well. -/
theorem inFourDigits_of_textLe (hi : i.InFourDigits)
    (h : Tables.textLe i.microText j.microText = true) : j.InFourDigits := by
  by_contra hj
  obtain ⟨c, cs, hcs, hc⟩ := exists_sign hj
  obtain ⟨d, ds, hds, hd⟩ := exists_digit hi
  rw [Tables.textLe, Bool.not_eq_true', decide_eq_false_iff_not, String.lt_iff, hcs, hds,
    List.cons_lt_cons_iff] at h
  exact h (.inl (sign_lt_digit hc hd))

end Instant

namespace Layout

variable {k : Layout} {l : Listing} {m : Memory} {j : JournalEntry}

theorem exists_entry (hj : j.IsExact) (hyear : k = .rows → j.bookedAt.InFourDigits) :
    ∃ e, k.entry j = .ok e := by
  cases k with
  | values => exact ⟨j, rfl⟩
  | rows =>
    have hlines : j.lineRows.mapM LineRow.read = .ok (j.lines.map (.kept j.id)) :=
      Tables.mapM_lineRows fun l hl _ =>
        LineRow.read_kept ⟨(hj.lines l hl).debit.unsigned, (hj.lines l hl).credit.unsigned⟩
    refine ⟨j.kept, ?_⟩
    simp only [entry, hlines, bind, Except.bind, JournalRow.read_kept (hyear rfl)]

theorem inFourDigits_of_concerns (hl : l.start.InFourDigits) (h : k.concerns l j = true)
    (hk : k = .rows) : j.bookedAt.InFourDigits := by
  subst hk
  rw [concerns, Bool.and_eq_true, Bool.and_eq_true] at h
  exact Instant.inFourDigits_of_textLe hl h.1.1

/-- **A page can be read** of journals that are exact. -/
theorem exists_page (hm : ∀ j ∈ m.journals, j.IsExact) (hl : l.start.InFourDigits) :
    ∃ entries, (k.page l m).mapM k.entry = .ok entries := by
  have hentry : ∀ j ∈ k.page l m, ∃ e, k.entry j = .ok e := by
    intro j hj
    obtain ⟨hmem, hconcerns⟩ := mem_found.1 (mem_found_of_mem_page hj)
    exact exists_entry (hm j hmem) (inFourDigits_of_concerns hl hconcerns)
  obtain ⟨entries, hread, -⟩ := Tables.exists_mapM_eq_ok hentry
  exact ⟨entries, hread⟩

end Layout

/-! ### Queries for other pages -/

theorem Field.page_succ {page size : Option Nat} {p n : Nat} (h : Field.page page size = .ok (p, n))
    (m : Nat) : Field.page (some (m + 1)) size = .ok (m + 1, n) := by
  have hpage : ((some (m + 1)).filter fun n => decide (0 < n)).getD 1 = m + 1 := by
    rw [Option.filter_some, if_pos (by simp), Option.getD_some]
  rw [Field.page, hpage]
  rw [Field.page] at h
  split_ifs at h ⊢
  · cases h
  · cases h
    rfl

theorem Field.size_pos {page size : Option Nat} {p n : Nat}
    (h : Field.page page size = .ok (p, n)) : 0 < n := by
  rw [Field.page] at h
  split_ifs at h
  · cases h
  · cases h
    cases hsize : size.filter (0 < ·) with
    | none => exact (by decide : 0 < Field.defaultPageSize)
    | some n => simpa using (Option.filter_eq_some_iff.1 hsize).2

theorem Field.inFourDigits_start {start stop start' stop' : Instant} {maxDays : Int}
    (h : Field.window start stop maxDays = .ok (start', stop')) : start'.InFourDigits := by
  obtain ⟨from', hfrom, h⟩ := exists_of_bind_eq_ok h
  obtain ⟨to', -, h⟩ := exists_of_bind_eq_ok h
  split_ifs at h
  · cases h
  · cases h
  · cases h
    unfold Field.timestamp at hfrom
    split_ifs at hfrom with hyear
    · cases hfrom
      exact ⟨by omega, by omega⟩
    · cases hfrom

namespace Listing

variable {account : String} {q : ActivityQuery} {l : Listing}

theorem fields_of_ofQuery (h : ofQuery account q = .ok l) :
    Field.account account "account_id" = .ok l.account ∧
      Field.window q.start q.stop maxDays = .ok (l.start, l.stop) ∧
      Field.page q.page q.size = .ok (l.page, l.size) := by
  obtain ⟨account', haccount, h⟩ := exists_of_bind_eq_ok h
  obtain ⟨⟨start, stop⟩, hwindow, h⟩ := exists_of_bind_eq_ok h
  obtain ⟨⟨page, size⟩, hpage, h⟩ := exists_of_bind_eq_ok h
  cases h
  exact ⟨haccount, hwindow, hpage⟩

/-- **A listing that can be asked for** can be asked for page by page. -/
theorem ofQuery_page (h : ofQuery account q = .ok l) (n : Nat) :
    ofQuery account { q with page := some (n + 1) } = .ok { l with page := n + 1 } := by
  obtain ⟨haccount, hwindow, hpage⟩ := fields_of_ofQuery h
  simp only [ofQuery, ofFields, haccount, hwindow, Field.page_succ hpage, bind, Except.bind, pure,
    Except.pure]

end Listing

namespace Ledger

variable {ι : Type} [DecidableEq ι]

/-- The pages of a listing, one after another from a number on, up to one that is not full.  Between
two pages anything can happen. -/
inductive Lists (l : Listing) : Nat → Ledger ι → List JournalView → Prop
  | last {n : Nat} {x : Ledger ι} {account : String} {q : ActivityQuery} {p : JournalPage}
    (asks : Listing.ofQuery account q = .ok { l with page := n })
    (replies : x.store.Replies (.journals account q) (.listed (.ok p)))
    (short : p.entries.length < p.size) : Lists l n x p.entries
  | more {n : Nat} {x y : Ledger ι} {account : String} {q : ActivityQuery} {p : JournalPage}
    {views : List JournalView} (asks : Listing.ofQuery account q = .ok { l with page := n })
    (replies : x.store.Replies (.journals account q) (.listed (.ok p))) (later : x.Later y)
    (rest : Lists l (n + 1) y views) : Lists l n x (p.entries ++ views)

namespace Filled

variable {k : Layout} {jobs : ι → Job} {L : List Posting} {x y : Ledger ι} {l : Listing}
  {account : String} {q : ActivityQuery}

theorem exact_of_mem (h : Filled k jobs L x) {j : JournalEntry}
    (hj : j ∈ (Posting.content L).journals) : j.IsExact := by
  rw [(Posting.fill_content h.sound).journals] at hj
  obtain ⟨P, hP, hj⟩ := List.mem_flatMap.1 hj
  rw [Posting.table_journal, List.mem_singleton] at hj
  exact hj ▸ h.exact P hP

/-- **Every page that can be asked for** is listed, with the journals that have a place on it. -/
theorem exists_page (h : Filled k jobs L x) (hr : x.store.readsData = true)
    (hl : Listing.ofQuery account q = .ok l) :
    ∃ p, x.store.Replies (.journals account q) (.listed (.ok p)) ∧ p.size = l.size ∧
      p.entries.length = (k.page l (Posting.content L)).length ∧
      ∀ v, v ∈ p.entries ↔ ∃ j ∈ k.page l (Posting.content L), k.view j = .ok v := by
  obtain ⟨-, hwindow, -⟩ := Listing.fields_of_ofQuery hl
  obtain ⟨entries, hread⟩ :=
    Layout.exists_page (k := k) (fun j hj => h.exact_of_mem hj) (Field.inFourDigits_start hwindow)
  obtain ⟨hlength, hmem⟩ := Layout.mem_of_mapM hread
  refine ⟨_, h.store.replies_journals hr h.sound.journalIds hl hread, rfl,
    by rw [List.length_map, hlength], fun v => ?_⟩
  rw [List.mem_map]
  constructor
  · rintro ⟨e, he, rfl⟩
    obtain ⟨j, hj, hje⟩ := (hmem e).1 he
    exact ⟨j, hj, congrArg (JournalView.ofEntry <$> ·) hje⟩
  · rintro ⟨j, hj, hv⟩
    cases he : k.entry j with
    | error e => rw [Layout.view, he] at hv; cases hv
    | ok e =>
      rw [Layout.view, he] at hv
      exact ⟨e, (hmem e).2 ⟨j, hj, he⟩, Except.ok.inj hv⟩

theorem page_spec (h : Filled k jobs L x) (hr : x.store.readsData = true)
    (hl : Listing.ofQuery account q = .ok l) {p : JournalPage}
    (hp : x.store.Replies (.journals account q) (.listed (.ok p))) :
    p.size = l.size ∧ p.entries.length = (k.page l (Posting.content L)).length ∧
      ∀ v, v ∈ p.entries ↔ ∃ j ∈ k.page l (Posting.content L), k.view j = .ok v := by
  obtain ⟨p', hp', hspec⟩ := h.exists_page hr hl
  cases hp.unique hp'
  exact hspec

theorem found_sublist (h : Filled k jobs L x) (hl : x.Later y) : ∃ L', Filled k jobs L' y ∧
    ∀ l, (k.found l (Posting.content L)).Sublist (k.found l (Posting.content L')) := by
  obtain ⟨L', h'⟩ := h.later hl
  refine ⟨L ++ L', h', fun l => Layout.found_sublist ?_ h'.sound.journalIds⟩
  rw [Posting.content_append, Memory.addAll_eq]
  exact List.prefix_append _ _

/-- **A journal behind the earlier pages** is on a later page. -/
theorem mem_of_lists {n : Nat} {views : List JournalView} (h : Lists l (n + 1) x views)
    (hx : Filled k jobs L x) (hr : x.store.readsData = true) {j : JournalEntry} {v : JournalView}
    (hj : j ∈ (k.found l (Posting.content L)).drop (n * l.size)) (hv : k.view j = .ok v) :
    v ∈ views := by
  generalize hn : n + 1 = n' at h
  induction h generalizing n L with
  | @last _ x account q p asks replies short =>
    subst hn
    obtain ⟨hsize, hlength, hmem⟩ := hx.page_spec hr asks replies
    have hshort : p.entries.length < l.size := hsize ▸ short
    rw [Layout.page_succ] at hlength hmem
    -- the page is not full: it is all that is left
    have hall : ((k.found l (Posting.content L)).drop (n * l.size)).take l.size =
        (k.found l (Posting.content L)).drop (n * l.size) := by
      rw [hlength, List.length_take] at hshort
      exact List.take_of_length_le (by omega)
    exact (hmem v).2 ⟨j, by rwa [hall], hv⟩
  | @more _ x y account q p views asks replies later rest ih =>
    subst hn
    obtain ⟨-, -, hmem⟩ := hx.page_spec hr asks replies
    rw [Layout.page_succ] at hmem
    rw [← List.take_append_drop l.size (List.drop _ _), List.mem_append] at hj
    obtain hj | hj := hj
    · exact List.mem_append_left _ ((hmem v).2 ⟨j, hj, hv⟩)
    · obtain ⟨L', hy, hsub⟩ := hx.found_sublist later
      rw [List.drop_drop, ← Nat.succ_mul] at hj
      have hj' := ((hsub l).drop _).subset hj
      exact List.mem_append_right _ (ih hy (later.readsData.trans hr) hj' rfl)

/-- **A listing can be read to its end.** -/
theorem exists_lists (h : Filled k jobs L x) (hr : x.store.readsData = true)
    (hl : Listing.ofQuery account q = .ok l) (n : Nat) : ∃ views, Lists l (n + 1) x views := by
  have hpos := Field.size_pos (Listing.fields_of_ofQuery hl).2.2
  -- each full page leaves fewer journals for those behind it
  induction hleft : ((k.found l (Posting.content L)).drop (n * l.size)).length
    using Nat.strong_induction_on generalizing n with
  | _ left ih =>
    have asks := Listing.ofQuery_page hl n
    obtain ⟨p, replies, hsize, hlength, -⟩ := h.exists_page hr asks
    by_cases hshort : p.entries.length < p.size
    · exact ⟨_, .last asks replies hshort⟩
    · rw [Layout.page_succ, List.length_take] at hlength
      rw [hlength, hsize, hleft] at hshort
      have hfewer : ((k.found l (Posting.content L)).drop ((n + 1) * l.size)).length < left := by
        rw [Nat.succ_mul, ← List.drop_drop, List.length_drop, hleft]
        dsimp only at hshort
        omega
      obtain ⟨views, hviews⟩ := ih _ hfewer (n + 1) rfl
      exact ⟨_, .more asks replies .refl hviews⟩

end Filled

end Ledger

end DoubleEntry
