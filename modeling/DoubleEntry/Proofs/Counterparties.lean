import DoubleEntry.Proofs.AgreeingJobs
import DoubleEntry.Proofs.AllOrNothing

/-!
# The other customers of a statement

A statement is asked for with the names of the other customers or without them.  Both answers show
the same items, and each item with names has that of its own customer, as the accounts service gave
it last, or none (`Partners.statement_named`).  The accounts service is asked once at most, for each
customer of the page once, and not at all if there is none.

## Main definitions

* `StatementPage.named`: a page with the names that were found.
* `StatementPage.LooksUp`: which names are looked up for some customers, and what is found.
-/

namespace DoubleEntry

/-- The customers whose names were looked up, and what was answered. -/
abbrev Lookup := List AccountId × Option (Except GatewayError (List AccountSummary))

/-- The exchange looked up names. -/
def Exchange.lookup? : Exchange → Option Lookup
  | ⟨.accounts (.summaries ids), a⟩ => some (ids, a)
  | _ => none

/-- The lookups among some exchanges. -/
def Log.lookups (es : List Exchange) : List Lookup := es.filterMap Exchange.lookup?

/-- The last summary of an account, if there is one. -/
def AccountSummary.lastOf (summaries : List AccountSummary) (a : AccountId) :
    Option AccountSummary :=
  (summaries.filter fun s => s.account = a).getLast?

namespace StatementPage

/-- The other customers that the items of a page name, one item after another. -/
def parties (p : StatementPage) : List AccountId := p.items.filterMap StatementItem.counterpartyId

/-- The item with the name that was found for its other customer. -/
def nameItem (found : AccountId → Option AccountSummary) (i : StatementItem) : StatementItem :=
  { i with counterparty := i.counterpartyId.bind found }

/-- The page with the names that were found. -/
def named (found : AccountId → Option AccountSummary) (p : StatementPage) : StatementPage :=
  { p with items := p.items.map (nameItem found) }

/-- The customers in ascending order, each once. -/
structure Lists (parties ids : List AccountId) : Prop where
  ascending : ids.Pairwise (· < ·)
  mem_iff : ∀ a, a ∈ ids ↔ a ∈ parties

/-- Which lookups are made for the other customers of a page, and what is found. -/
inductive LooksUp (parties : List AccountId) :
    List Lookup → (AccountId → Option AccountSummary) → Prop
  /-- There is no other customer, and nothing is looked up. -/
  | none (nobody : parties = []) : LooksUp parties [] fun _ => .none
  /-- The lookup fails, and nothing is found. -/
  | failed {ids : List AccountId} (e : GatewayError) (somebody : parties ≠ [])
    (lists : Lists parties ids) : LooksUp parties [(ids, some (.error e))] fun _ => .none
  /-- For each customer the last summary is found that was given. -/
  | found {ids : List AccountId} (summaries : List AccountSummary) (somebody : parties ≠ [])
    (lists : Lists parties ids) :
    LooksUp parties [(ids, some (.ok summaries))] (AccountSummary.lastOf summaries)

/-- The other customers of the page that is answered, if one is. -/
def partiesOf : Option (Except ServiceError StatementPage) → List AccountId
  | some (.ok p) => p.parties
  | _ => []

end StatementPage

/-- What a statement over a store comes to: its answer, none if it crashes, and what is exchanged
for it. -/
def Partners.statement {σ : Type} (o : Partners σ) (s : Store) (x : σ) (account : String)
    (q : StatementQuery) : Option (Except ServiceError StatementPage) × List Exchange :=
  let r := (Listings.statement account q).run (Program.noting o.world) ((s, x), [])
  (r.1, r.2.2)

namespace Listings

open StatementPage

variable {σ : Type} {o : Partners σ} {items : List StatementItem} {ids : List AccountId}
  {a id : AccountId}

/-! ### The customers of a page -/

theorem mem_insertId : a ∈ insertId id ids ↔ a = id ∨ a ∈ ids := by
  induction ids with
  | nil => simp [insertId]
  | cons i ids ih =>
    unfold insertId
    split_ifs with hlt heq
    · exact List.mem_cons
    · subst heq
      simp
    · simp only [List.mem_cons, ih]
      exact or_left_comm

theorem pairwise_insertId (id : AccountId) (h : ids.Pairwise (· < ·)) :
    (insertId id ids).Pairwise (· < ·) := by
  induction ids with
  | nil => exact List.pairwise_singleton _ _
  | cons i ids ih =>
    obtain ⟨hi, hids⟩ := List.pairwise_cons.1 h
    unfold insertId
    split_ifs with hlt heq
    · refine List.pairwise_cons.2 ⟨fun j hj => ?_, h⟩
      obtain rfl | hj := List.mem_cons.1 hj
      · exact hlt
      · exact Nat.lt_trans hlt (hi j hj)
    · exact h
    · refine List.pairwise_cons.2 ⟨fun j hj => ?_, ih hids⟩
      obtain rfl | hj := mem_insertId.1 hj
      -- neither below the first one nor equal to it
      · have hne : j.bits ≠ i.bits := fun hbits => heq (by rw [Uuid.mk.injEq]; exact hbits)
        have hnot : ¬ j.bits < i.bits := hlt
        have hgt : i.bits < j.bits := by omega
        exact hgt
      · exact hi j hj

theorem foldl_insertId (parties : List AccountId) (h : ids.Pairwise (· < ·)) :
    (parties.foldl (fun ids id => insertId id ids) ids).Pairwise (· < ·) ∧
      ∀ a, a ∈ parties.foldl (fun ids id => insertId id ids) ids ↔ a ∈ parties ∨ a ∈ ids := by
  induction parties generalizing ids with
  | nil => exact ⟨h, fun a => by simp⟩
  | cons id parties ih =>
    obtain ⟨hascending, hmem⟩ := ih (pairwise_insertId id h)
    refine ⟨hascending, fun a => (hmem a).trans ?_⟩
    rw [mem_insertId, List.mem_cons, or_assoc]
    exact or_left_comm

/-- **The customers that are looked up**: each of the page, in ascending order and once. -/
theorem lists_otherParties (items : List StatementItem) :
    Lists (items.filterMap StatementItem.counterpartyId) (otherParties items) := by
  obtain ⟨hascending, hmem⟩ :=
    foldl_insertId (items.filterMap StatementItem.counterpartyId) List.Pairwise.nil
  exact ⟨hascending, fun a => (hmem a).trans (by simp)⟩

/-! ### The names of the items -/

theorem summaryOf_eq (summaries : List AccountSummary) (a : AccountId) :
    summaryOf summaries a = AccountSummary.lastOf summaries a := by
  rw [summaryOf, AccountSummary.lastOf, ← List.head?_filter, List.filter_reverse,
    List.head?_reverse]

theorem nameItem_of_none {found : AccountId → Option AccountSummary} {i : StatementItem}
    (plain : i.counterparty = none) (h : i.counterpartyId.bind found = none) :
    nameItem found i = i := by
  rw [nameItem, h, ← plain]

theorem map_nameItem_none (plain : ∀ i ∈ items, i.counterparty = none) :
    items.map (nameItem fun _ => none) = items := by
  refine (List.map_congr_left fun i hi => ?_).trans items.map_id
  exact nameItem_of_none (plain i hi) (by cases i.counterpartyId <;> rfl)

theorem withSummaries_eq (plain : ∀ i ∈ items, i.counterparty = none)
    (summaries : List AccountSummary) :
    withSummaries summaries items = items.map (nameItem (AccountSummary.lastOf summaries)) := by
  refine List.map_congr_left fun i hi => ?_
  cases hid : i.counterpartyId with
  | none => exact (nameItem_of_none (plain i hi) (by rw [hid]; rfl)).symm
  | some a => simp [nameItem, hid, summaryOf_eq]

/-! ### The two answers -/

/-- **Looking up names.**  A statement goes on with the items and the names that were found. -/
theorem run_enrich {α : Type} (plain : ∀ i ∈ items, i.counterparty = none)
    (k : List StatementItem → Program α) (y : Store × σ) (es : List Exchange) :
    ∃ found lookups y' es',
      LooksUp (items.filterMap StatementItem.counterpartyId) lookups found ∧
      Log.lookups es' = Log.lookups es ++ lookups ∧
      (enrich items k).run (Program.noting o.world) (y, es) =
        (k (items.map (nameItem found))).run (Program.noting o.world) (y', es') := by
  have lists := lists_otherParties items
  obtain ⟨ids, hids⟩ : ∃ ids, ids = otherParties items := ⟨_, rfl⟩
  rw [← hids] at lists
  rw [enrich, ← hids]
  cases ids with
  | nil =>
    have hnobody : items.filterMap StatementItem.counterpartyId = [] :=
      List.eq_nil_iff_forall_not_mem.2 fun a ha => List.not_mem_nil ((lists.mem_iff a).2 ha)
    exact ⟨_, [], y, es, .none hnobody, (List.append_nil _).symm,
      by rw [map_nameItem_none plain]⟩
  | cons id ids =>
    have hsomebody : items.filterMap StatementItem.counterpartyId ≠ [] :=
      List.ne_nil_of_mem ((lists.mem_iff id).1 List.mem_cons_self)
    obtain ⟨s, x⟩ := y
    obtain ⟨answer, x', hanswer⟩ : ∃ (a : Except GatewayError (List AccountSummary)) (x' : σ),
      o.accounts (.summaries (id :: ids)) x = (a, x') := ⟨_, _, rfl⟩
    have hworld : Program.noting o.world (.accounts (.summaries (id :: ids))) ((s, x), es) =
        (some answer, ((s, x'),
          es ++ [⟨.accounts (.summaries (id :: ids)), some answer⟩])) := by
      simp only [Program.noting, Partners.world, hanswer]
      rfl
    have hnoted : Log.lookups (es ++ [⟨.accounts (.summaries (id :: ids)), some answer⟩]) =
        Log.lookups es ++ [(id :: ids, some answer)] := List.filterMap_append
    cases answer with
    | error e =>
      refine ⟨_, _, (s, x'), _, .failed e hsomebody lists, hnoted,
        (Program.run_ask hworld).trans ?_⟩
      rw [map_nameItem_none plain]
    | ok summaries =>
      refine ⟨_, _, (s, x'), _, .found summaries hsomebody lists, hnoted,
        (Program.run_ask hworld).trans ?_⟩
      exact congrArg (fun items => (k items).run (Program.noting o.world) _)
        (withSummaries_eq plain summaries)

theorem run_finish (c : StatementCommand) (items : List StatementItem) (y : Store × σ)
    (es : List Exchange) : ∃ y' es', Log.lookups es' = Log.lookups es ∧
      (finish c items).run (Program.noting o.world) (y, es) =
        (some (.ok ⟨items, c.listing.page, c.listing.size⟩), (y', es')) := by
  obtain ⟨s, x⟩ := y
  refine ⟨_, _, ?_, rfl⟩
  simp [Log.lookups, Exchange.lookup?]

end Listings

namespace Partners

open StatementPage Listings

variable {σ : Type}

/-- **The two ways on.**  With the items that it has, if no sum left its range, a statement ends the
same with names and without, but for the names. -/
theorem run_withItems (o : Partners σ) (l : Listing) {items? : Option (List StatementItem)}
    (plain : ∀ items ∈ items?, ∀ i ∈ items, i.counterparty = none) (y : Store × σ)
    (es : List Exchange) : ∃ answer y₁ es₁ found lookups y₂ es₂,
      (Session.withItems ⟨l, false⟩ items?).run (Program.noting o.world) (y, es) =
        (answer, (y₁, es₁)) ∧ Log.lookups es₁ = Log.lookups es ∧
      (Session.withItems ⟨l, true⟩ items?).run (Program.noting o.world) (y, es) =
        (answer.map (Except.map (named found)), (y₂, es₂)) ∧
      Log.lookups es₂ = Log.lookups es ++ lookups ∧ LooksUp (partiesOf answer) lookups found := by
  cases items? with
  | none =>
    exact ⟨none, y, es, _, [], y, es, rfl, rfl, rfl, (List.append_nil _).symm, .none rfl⟩
  | some items =>
    obtain ⟨y₁, es₁, hquiet, hfinish⟩ := run_finish (o := o) ⟨l, false⟩ items y es
    obtain ⟨found, lookups, y', es', hlooks, hlookups, henrich⟩ :=
      run_enrich (o := o) (plain items rfl) (finish ⟨l, true⟩) y es
    obtain ⟨y₂, es₂, hquiet', hfinish'⟩ :=
      run_finish (o := o) ⟨l, true⟩ (items.map (nameItem found)) y' es'
    exact ⟨_, y₁, es₁, found, lookups, y₂, es₂, hfinish, hquiet, henrich.trans hfinish',
      hquiet'.trans hlookups, hlooks⟩

/-- The items that some journals show of an account, if no sum leaves its range. -/
def shown (account : AccountId) (entries : List JournalEntry) : Option (List StatementItem) :=
  (entries.mapM fun e => StatementLine.project e account).map (List.map StatementItem.ofLine)

theorem plain_shown (account : AccountId) (entries : List JournalEntry) :
    ∀ items ∈ shown account entries, ∀ i ∈ items, i.counterparty = none := by
  rintro items hitems i hi
  obtain ⟨lines, -, rfl⟩ := Option.map_eq_some_iff.1 hitems
  obtain ⟨line, -, rfl⟩ := List.mem_map.1 hi
  rfl

/-- **The read of a statement.**  It fails as the store fails, or goes on with the items that the
journals show. -/
theorem run_statement (o : Partners σ) (s : Store) (x : σ) {account : String} {q : StatementQuery}
    {c : StatementCommand} (h : StatementCommand.ofQuery account q = .ok c)
    {a : Option (Except StoreError (List JournalEntry))}
    (ha : a = Surroundings.ofOutcome (s.serve (.activity c.listing)).1) :
    (Listings.statement account q).run (Program.noting o.world) ((s, x), []) =
      let y := (((s.serve (.activity c.listing)).2, x),
        [(⟨.store (.activity c.listing), a⟩ : Exchange)])
      match a with
      | none => (none, y)
      | some (.error e) => (some (.error e.toService), y)
      | some (.ok entries) =>
        (Session.withItems c (shown c.listing.account entries)).run (Program.noting o.world) y := by
  have hworld : Program.noting o.world (.store (.activity c.listing)) ((s, x), []) =
      (a, (((s.serve (.activity c.listing)).2, x), [⟨.store (.activity c.listing), a⟩])) := by
    rw [ha]
    rfl
  rw [Session.statement_eq h]
  cases a with
  | none => exact Program.run_crash hworld
  | some a =>
    cases a with
    | error e => exact Program.run_ask hworld
    | ok entries => exact Program.run_ask hworld

theorem statement_of_run {o : Partners σ} {s : Store} {x : σ} {account : String}
    {q : StatementQuery} {answer : Option (Except ServiceError StatementPage)} {y : Store × σ}
    {es : List Exchange} (h : (Listings.statement account q).run (Program.noting o.world)
      ((s, x), []) = (answer, (y, es))) : o.statement s x account q = (answer, es) := by
  rw [statement, h]

/-- **A statement with names and without.**  Over any store, whatever the accounts service answers,
the two answers are the same but for the names, each item having the one that was found for its
other customer; and names are looked up once, for each customer of the page, if there is any. -/
theorem statement_named (o : Partners σ) (s : Store) (x : σ) (account : String)
    (q : StatementQuery) :
    Log.lookups (o.statement s x account { q with includeCounterparty := false }).2 = [] ∧
    ∃ found,
      LooksUp (partiesOf (o.statement s x account { q with includeCounterparty := false }).1)
        (Log.lookups (o.statement s x account { q with includeCounterparty := true }).2) found ∧
      (o.statement s x account { q with includeCounterparty := true }).1 =
        (o.statement s x account { q with includeCounterparty := false }).1.map
          (Except.map (named found)) := by
  cases hl : Listing.ofFields account q.start q.stop q.page q.size StatementCommand.maxDays with
  | error e =>
    have hfail (names : Bool) : Listings.statement account { q with includeCounterparty := names } =
        .fail e.toService := by
      simp only [Listings.statement, StatementCommand.ofQuery, hl, bind, Except.bind]
    simp only [statement, hfail]
    exact ⟨rfl, _, .none rfl, rfl⟩
  | ok l =>
    have hcommand (names : Bool) : StatementCommand.ofQuery account
        { q with includeCounterparty := names } = .ok ⟨l, names⟩ := by
      simp only [StatementCommand.ofQuery, hl, bind, Except.bind, pure, Except.pure]
    obtain ⟨a, ha⟩ : ∃ a : Option (Except StoreError (List JournalEntry)),
      a = Surroundings.ofOutcome (s.serve (.activity l)).1 := ⟨_, rfl⟩
    have hrun (names : Bool) := run_statement o s x (hcommand names) ha
    cases a with
    | none =>
      rw [statement_of_run (hrun false), statement_of_run (hrun true)]
      exact ⟨rfl, _, .none rfl, rfl⟩
    | some a =>
      cases a with
      | error e =>
        rw [statement_of_run (hrun false), statement_of_run (hrun true)]
        exact ⟨rfl, _, .none rfl, rfl⟩
      | ok entries =>
        obtain ⟨answer, y₁, es₁, found, lookups, y₂, es₂, hplain, hquiet, hnamed, hlookups,
            hlooks⟩ :=
          run_withItems o l (plain_shown l.account entries) ((s.serve (.activity l)).2, x)
            [⟨.store (.activity l), some (.ok entries)⟩]
        rw [statement_of_run ((hrun false).trans hplain),
          statement_of_run ((hrun true).trans hnamed)]
        refine ⟨hquiet, found, ?_, rfl⟩
        show LooksUp (partiesOf answer) (Log.lookups es₂) found
        rw [hlookups]
        exact hlooks

end Partners

end DoubleEntry
